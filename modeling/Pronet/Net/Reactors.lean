import Mathlib

/-! The tables of `CProEpollReactor` and `CProSelectReactor`. Each reactor computes from
the old mask of a socket and the mask of the call what to tell the kernel. -/
namespace Pronet.Net

open Std

def maskAccept : UInt64 := 0x01
def maskConnect : UInt64 := 0x02
def maskWrite : UInt64 := 0x04
def maskRead : UInt64 := 0x08
def maskException : UInt64 := 0x10

def bitEnabled (mask bit : UInt64) : Bool := mask &&& bit ≠ 0

/-- The masks that a handler can be registered with. -/
def knownMask (mask : UInt64) : UInt64 :=
  mask &&& (maskAccept ||| maskConnect ||| maskWrite ||| maskRead ||| maskException)

/-- Accepting is reading, and connecting is all three. -/
def widenMask (mask : UInt64) : UInt64 :=
  let mask := if bitEnabled mask maskAccept then (mask &&& ~~~maskAccept) ||| maskRead else mask
  if bitEnabled mask maskConnect then
    (mask &&& ~~~maskConnect) ||| (maskWrite ||| maskRead ||| maskException)
  else mask

/-- `PRO_HANDLER_INFO` of a handler that is not null. -/
structure HandlerInfo where
  handler : Nat
  mask : UInt64
  deriving DecidableEq, Repr

/-- The table, with the references that it has taken and given back. -/
structure HandlerMgr where
  sockId2HandlerInfo : ExtTreeMap Int HandlerInfo
  addRefs : List Nat
  releases : List Nat

namespace HandlerMgr

def empty : HandlerMgr := ⟨∅, [], []⟩

def findHandler (m : HandlerMgr) (sockId : Int) : Option HandlerInfo :=
  if sockId = -1 then none else m.sockId2HandlerInfo[sockId]?

def addHandler (m : HandlerMgr) (sockId : Int) (handler : Option Nat) (mask : UInt64) :
    HandlerMgr × Bool :=
  match handler with
  | none => (m, false)
  | some handler =>
      if sockId = -1 || mask = 0 then (m, false)
      else
        match m.sockId2HandlerInfo[sockId]? with
        | none =>
            ({ m with
                sockId2HandlerInfo := m.sockId2HandlerInfo.insert sockId ⟨handler, mask⟩
                addRefs := m.addRefs ++ [handler] }, true)
        | some info =>
            if handler = info.handler then
              ({ m with
                  sockId2HandlerInfo := m.sockId2HandlerInfo.insert sockId
                    { info with mask := info.mask ||| mask } }, true)
            else (m, false)

def removeHandler (m : HandlerMgr) (sockId : Int) (mask : UInt64) : HandlerMgr :=
  if sockId = -1 || mask = 0 then m
  else
    match m.sockId2HandlerInfo[sockId]? with
    | none => m
    | some info =>
        let info := { info with mask := info.mask &&& ~~~mask }
        if info.mask = 0 then
          { m with
            sockId2HandlerInfo := m.sockId2HandlerInfo.erase sockId
            releases := m.releases ++ [info.handler] }
        else { m with sockId2HandlerInfo := m.sockId2HandlerInfo.insert sockId info }

end HandlerMgr

/-- The mask in the table, or 0. -/
def oldMask (info : Option HandlerInfo) : UInt64 := info.elim 0 HandlerInfo.mask

/-- `PRO_EPOLLIN_SET`, `PRO_EPOLLEX_SET` and `PRO_EPOLLOUT_SET`. -/
def epollIn : UInt16 := 0x001
def epollEx : UInt16 := 0x002
def epollOut : UInt16 := 0x004

/-- Add the events of a mask to some events. -/
def addEvents (events : UInt16) (mask : UInt64) : UInt16 :=
  let events := if bitEnabled mask maskWrite then events ||| epollOut else events
  let events := if bitEnabled mask maskRead then events ||| epollIn else events
  if bitEnabled mask maskException then events ||| epollEx else events

def clearEvents (events : UInt16) (mask : UInt64) : UInt16 :=
  let events := if bitEnabled mask maskWrite then events &&& ~~~epollOut else events
  let events := if bitEnabled mask maskRead then events &&& ~~~epollIn else events
  if bitEnabled mask maskException then events &&& ~~~epollEx else events

inductive EpollOp
  | add
  | mod
  | del
  deriving DecidableEq, Repr

/-- A call of `epoll_ctl`, and whether the descriptor was in the interest set. -/
structure EpollCtl where
  op : EpollOp
  fd : Int
  present : Bool
  deriving DecidableEq, Repr

/-- `epfd` says that `m_epfd` is not -1. `interest` is the interest set of the kernel. -/
structure EpollReactor where
  epfd : Bool
  wantExit : Bool
  handlerMgr : HandlerMgr
  interest : ExtTreeMap Int UInt16
  ctls : List EpollCtl

/-- A `PRO_INT64` as an `int`. -/
def asFd (sockId : Int) : Int := sockId.bmod (2 ^ 32)

namespace EpollReactor

/-- `epoll_ctl`. The kernel refuses to add what is there, and to change or delete what is
not; `able` says that nothing else makes it fail. -/
def epollCtl (r : EpollReactor) (op : EpollOp) (fd : Int) (events : UInt16) (able : Bool) :
    EpollReactor × Bool :=
  let present := decide (fd ∈ r.interest)
  let r := { r with ctls := r.ctls ++ [⟨op, fd, present⟩] }
  if !able then (r, false)
  else
    match op, present with
    | .add, false => ({ r with interest := r.interest.insert fd events }, true)
    | .mod, true => ({ r with interest := r.interest.insert fd events }, true)
    | .del, true => ({ r with interest := r.interest.erase fd }, true)
    | _, _ => (r, false)

/-- The reactor after `Init`. It is the handler of its own pipe. -/
def init (pipe : Int) (self : Nat) : EpollReactor :=
  let r : EpollReactor := ⟨true, false, .empty, ∅, []⟩
  let r := (r.epollCtl .add (asFd pipe) epollIn true).1
  { r with handlerMgr := (r.handlerMgr.addHandler pipe (some self) maskRead).1 }

/-- `able` and `able'` are for the first `epoll_ctl` and for the one of the rollback. -/
def addHandler (r : EpollReactor) (sockId : Int) (handler : Option Nat) (mask : UInt64)
    (able able' : Bool) : EpollReactor × Bool :=
  let mask := knownMask mask
  if sockId = -1 || handler.isNone || mask = 0 then (r, false)
  else
    let mask := widenMask mask
    if !r.epfd || r.wantExit then (r, false)
    else
      let oldInfo := r.handlerMgr.findHandler sockId
      if oldInfo.any (fun info => handler ≠ some info.handler) then (r, false)
      else
        let mask := mask &&& ~~~oldMask oldInfo
        if mask = 0 then (r, true)
        else
          let oldEvents := addEvents 0 (oldMask oldInfo)
          let events := addEvents oldEvents mask
          let (r, done) := r.epollCtl (if oldEvents = 0 then .add else .mod) (asFd sockId) events able
          if !done then (r, false)
          else
            match r.handlerMgr.addHandler sockId handler mask with
            | (_, false) =>
                ((r.epollCtl (if oldEvents = 0 then .del else .mod) (asFd sockId) oldEvents able').1,
                  false)
            | (handlerMgr, true) => ({ r with handlerMgr := handlerMgr }, true)

def removeHandler (r : EpollReactor) (sockId : Int) (mask : UInt64) (able : Bool) : EpollReactor :=
  let mask := knownMask mask
  if sockId = -1 || mask = 0 then r
  else
    let mask := widenMask mask
    if !r.epfd then r
    else
      match r.handlerMgr.findHandler sockId with
      | none => r
      | some oldInfo =>
          let mask := mask &&& oldInfo.mask
          if mask = 0 then r
          else
            let events := clearEvents (addEvents 0 oldInfo.mask) mask
            let r := (r.epollCtl (if events = 0 then .del else .mod) (asFd sockId) events able).1
            { r with handlerMgr := r.handlerMgr.removeHandler sockId mask }

end EpollReactor

/-- `FD_SETSIZE`. -/
def fdSetSize : Int := 1024

/-- `pbsd_fd_preset_i`. -/
def fdPreset (fd : Int) : Bool := fd ≠ -1 && fd < fdSetSize

/-- `pbsd_fd_set_i`. -/
def fdSet (fd : Int) (fds : ExtTreeSet Int) : ExtTreeSet Int :=
  if fd ≠ -1 && fd < fdSetSize then fds.insert fd else fds

/-- `pbsd_fd_clr_i`. -/
def fdClr (fd : Int) (fds : ExtTreeSet Int) : ExtTreeSet Int :=
  if fd ≠ -1 && fd < fdSetSize then fds.erase fd else fds

structure SelectReactor where
  wantExit : Bool
  handlerMgr : HandlerMgr
  fdsWr : ExtTreeSet Int
  fdsRd : ExtTreeSet Int
  fdsEx : ExtTreeSet Int

namespace SelectReactor

def init (pipe : Int) (self : Nat) : SelectReactor :=
  ⟨false, (HandlerMgr.empty.addHandler pipe (some self) maskRead).1, ∅, fdSet pipe ∅, ∅⟩

def addHandler (r : SelectReactor) (sockId : Int) (handler : Option Nat) (mask : UInt64) :
    SelectReactor × Bool :=
  let mask := knownMask mask
  if sockId = -1 || handler.isNone || mask = 0 then (r, false)
  else
    let mask := widenMask mask
    if r.wantExit then (r, false)
    else
      let oldInfo := r.handlerMgr.findHandler sockId
      if oldInfo.any (fun info => handler ≠ some info.handler) then (r, false)
      else
        let mask := mask &&& ~~~oldMask oldInfo
        if mask = 0 then (r, true)
        else if bitEnabled mask maskWrite && !fdPreset sockId then (r, false)
        else if bitEnabled mask maskRead && !fdPreset sockId then (r, false)
        else if bitEnabled mask maskException && !fdPreset sockId then (r, false)
        else
          match r.handlerMgr.addHandler sockId handler mask with
          | (_, false) => (r, false)
          | (handlerMgr, true) =>
              ({ r with
                  handlerMgr := handlerMgr
                  fdsWr := if bitEnabled mask maskWrite then fdSet sockId r.fdsWr else r.fdsWr
                  fdsRd := if bitEnabled mask maskRead then fdSet sockId r.fdsRd else r.fdsRd
                  fdsEx := if bitEnabled mask maskException then fdSet sockId r.fdsEx else r.fdsEx },
                true)

def removeHandler (r : SelectReactor) (sockId : Int) (mask : UInt64) : SelectReactor :=
  let mask := knownMask mask
  if sockId = -1 || mask = 0 then r
  else
    let mask := widenMask mask
    match r.handlerMgr.findHandler sockId with
    | none => r
    | some oldInfo =>
        let mask := mask &&& oldInfo.mask
        if mask = 0 then r
        else
          { r with
            handlerMgr := r.handlerMgr.removeHandler sockId mask
            fdsWr := if bitEnabled mask maskWrite then fdClr sockId r.fdsWr else r.fdsWr
            fdsRd := if bitEnabled mask maskRead then fdClr sockId r.fdsRd else r.fdsRd
            fdsEx := if bitEnabled mask maskException then fdClr sockId r.fdsEx else r.fdsEx }

end SelectReactor

end Pronet.Net
