import Pronet.Library.Runs

/-! `CProFunctorCommandTask` over `CProThreadBase`: one thread executes the commands that
`Put` accepts. `Start` and `Stop` take turns under `m_lockAtom`; a command neither stops
its own task nor waits for another command. -/
namespace Pronet.Util

open Library Runs

variable {κ : Type*}

/-- `ticket` tells the accepted commands apart; `blocking` stands for a user datum that
points to the condition of the caller. -/
structure TaskCommand (κ : Type*) where
  ticket : Nat
  command : κ
  blocking : Bool
  deriving DecidableEq, Repr

/-- Where `Svc` stands. Behind `m_wantExit` it has the commands that were left. -/
inductive WorkerPhase (κ : Type*)
  | absent
  | spawned
  | looks
  | asleep
  | executing (c : TaskCommand κ) (rest : Option (List (TaskCommand κ)))
  | executed (c : TaskCommand κ) (rest : Option (List (TaskCommand κ)))
  | signalled (c : TaskCommand κ) (rest : Option (List (TaskCommand κ)))
  | ends
  deriving DecidableEq, Repr

/-- Where the thread in `Start` or `Stop` stands, inside the loops that wait. -/
inductive CallerPhase
  | nobody
  | startSleeps
  | startLooks
  | stopLooks
  | stopSleeps
  | stopEnds
  deriving DecidableEq, Repr

/-- The flags are those of `m_initCond`, `m_commandCond` and of the condition in
`CProThreadBase`; `blocked` and `signalled` have the tickets of blocking calls. -/
structure CommandTask (κ : Type*) where
  threadId : Nat
  wantExit : Bool
  commands : List (TaskCommand κ)
  threadCount : Nat
  initFlag : Bool
  commandFlag : Bool
  exitFlag : Bool
  worker : WorkerPhase κ
  caller : CallerPhase
  blocked : List Nat
  signalled : List Nat
  accepted : List (TaskCommand κ)
  executed : List (TaskCommand κ)
  destroyed : List (TaskCommand κ)
  returned : List Nat
  deriving DecidableEq, Repr

inductive TaskEvent (κ : Type*)
  | start (spawned : Bool)
  | threadStarts (id : Nat)
  | startTakes
  | startLooks
  | put (command : κ) (blocking : Bool)
  | putReturns (ticket : Nat)
  | looks
  | takes
  | execute
  | signal
  | destroy
  | stop
  | threadEnds
  | joinTakes
  | joinLooks
  | stopEnds
  deriving DecidableEq, Repr

namespace CommandTask

def init : CommandTask κ :=
  ⟨0, false, [], 0, false, false, false, .absent, .nobody, [], [], [], [], [], []⟩

/-- The loop behind `m_wantExit`. -/
def drain : List (TaskCommand κ) → WorkerPhase κ
  | [] => .ends
  | c :: rest => .executing c (some rest)

/-- The body of the loop in `Svc` under `m_lock`. -/
def look (w : CommandTask κ) : CommandTask κ :=
  if w.wantExit then { w with commands := [], worker := drain w.commands }
  else
    match w.commands with
    | [] => { w with worker := .asleep }
    | c :: rest => { w with commands := rest, worker := .executing c none }

def step (w : CommandTask κ) : TaskEvent κ → Option (CommandTask κ)
  | .start spawned =>
      if w.caller = .nobody then
        if w.threadId ≠ 0 || !spawned then some w
        -- The new thread needs `m_lock`, so the caller goes to sleep.
        else some { w with threadCount := w.threadCount + 1, worker := .spawned, caller := .startSleeps }
      else none
  | .threadStarts id =>
      match w.worker with
      | .spawned =>
          if id = 0 then none
          else some { w with threadId := id, initFlag := true, worker := .looks }
      | _ => none
  | .startTakes =>
      if w.caller = .startSleeps ∧ w.initFlag = true then
        some { w with initFlag := false, caller := .startLooks }
      else none
  | .startLooks =>
      if w.caller = .startLooks then
        some { w with caller := if w.threadId = 0 then .startSleeps else .nobody }
      else none
  | .put command blocking =>
      if w.threadId = 0 || w.wantExit then some w
      else
        let c : TaskCommand κ := ⟨w.accepted.length, command, blocking⟩
        some { w with
          commands := w.commands ++ [c]
          commandFlag := true
          accepted := w.accepted ++ [c]
          blocked := if blocking then w.blocked ++ [c.ticket] else w.blocked }
  | .putReturns ticket =>
      if ticket ∈ w.blocked ∧ ticket ∈ w.signalled then
        some { w with
          blocked := w.blocked.erase ticket
          signalled := w.signalled.erase ticket
          returned := w.returned ++ [ticket] }
      else none
  | .looks =>
      match w.worker with
      | .looks => some w.look
      | _ => none
  | .takes =>
      match w.worker with
      | .asleep => if w.commandFlag then some { w with commandFlag := false, worker := .looks } else none
      | _ => none
  | .execute =>
      match w.worker with
      | .executing c rest => some { w with worker := .executed c rest, executed := w.executed ++ [c] }
      | _ => none
  | .signal =>
      match w.worker with
      | .executed c rest =>
          some { w with
            signalled := if c.blocking then w.signalled ++ [c.ticket] else w.signalled
            worker := .signalled c rest }
      | _ => none
  | .destroy =>
      match w.worker with
      | .signalled c rest =>
          some { w with destroyed := w.destroyed ++ [c], worker := rest.elim .looks drain }
      | _ => none
  | .stop =>
      if w.caller = .nobody then
        if w.threadId = 0 then some w
        else some { w with wantExit := true, commandFlag := true, caller := .stopLooks }
      else none
  | .threadEnds =>
      match w.worker with
      | .ends => some { w with threadCount := w.threadCount - 1, exitFlag := true, worker := .absent }
      | _ => none
  | .joinTakes =>
      if w.caller = .stopSleeps ∧ w.exitFlag = true then
        some { w with exitFlag := false, caller := .stopLooks }
      else none
  | .joinLooks =>
      if w.caller = .stopLooks then
        some { w with caller := if w.threadCount > 0 then .stopSleeps else .stopEnds }
      else none
  | .stopEnds =>
      if w.caller = .stopEnds then
        some { w with threadId := 0, wantExit := false, caller := .nobody }
      else none

/-- The commands that the worker has taken and not yet executed. -/
def inHand : WorkerPhase κ → List (TaskCommand κ)
  | .executing c rest => c :: rest.getD []
  | .executed _ rest => rest.getD []
  | .signalled _ rest => rest.getD []
  | _ => []

/-- The command that is executed and not yet destroyed. -/
def finishing : WorkerPhase κ → List (TaskCommand κ)
  | .executed c _ => [c]
  | .signalled c _ => [c]
  | _ => []

/-- The command whose caller may go on and which is not yet destroyed. -/
def released : WorkerPhase κ → List (TaskCommand κ)
  | .signalled c _ => [c]
  | _ => []

/-- The commands whose callers may go on. -/
def served (w : CommandTask κ) : List (TaskCommand κ) := w.destroyed ++ released w.worker

/-- The phases in which the worker comes back to the head of its loop. -/
def loops : WorkerPhase κ → Bool
  | .looks => true
  | .asleep => true
  | .executing _ rest => rest.isNone
  | .executed _ rest => rest.isNone
  | .signalled _ rest => rest.isNone
  | _ => false

def starting : CallerPhase → Bool
  | .startSleeps => true
  | .startLooks => true
  | _ => false

def stopping : CallerPhase → Bool
  | .stopLooks => true
  | .stopSleeps => true
  | .stopEnds => true
  | _ => false

/-- How the life of the thread goes with what `Start` and `Stop` do. -/
structure Life (w : CommandTask κ) : Prop where
  stopped : w.threadId = 0 → w.wantExit = false ∧ w.commands = [] ∧
    (w.worker = .absent ∧ w.caller = .nobody ∨ w.worker = .spawned ∧ starting w.caller = true)
  started : w.threadId ≠ 0 → w.worker ≠ .spawned ∧ w.wantExit = stopping w.caller ∧
    (loops w.worker = false → w.wantExit = true ∧ w.commands = [])
  count : (w.worker = .absent → w.threadCount = 0) ∧ (w.worker ≠ .absent → w.threadCount = 1)
  ended : w.caller = .stopEnds → w.worker = .absent

/-- What has been accepted is executed, in the hand of the worker, or in the queue. -/
structure Order (w : CommandTask κ) : Prop where
  accepted : w.accepted = w.executed ++ inHand w.worker ++ w.commands
  executed : w.executed = w.destroyed ++ finishing w.worker
  tickets : w.accepted.map TaskCommand.ticket = List.range w.accepted.length

/-- A blocking call has its command accepted, and returns once that is executed. -/
structure Calls (w : CommandTask κ) : Prop where
  called : ∀ ticket ∈ w.blocked ++ w.returned, ∃ c ∈ w.accepted, c.ticket = ticket
  once : (w.blocked ++ w.returned).Nodup
  blocking : ∀ c ∈ w.accepted, c.ticket ∈ w.blocked → c.blocking = true
  signals : ∀ c ∈ w.served, c.blocking = true → c.ticket ∈ w.signalled ∨ c.ticket ∈ w.returned
  done : ∀ ticket ∈ w.signalled ++ w.returned, ∃ c ∈ w.served, c.ticket = ticket

/-- Nobody sleeps through what it waits for. -/
structure Alert (w : CommandTask κ) : Prop where
  command : w.worker = .asleep → w.commandFlag = true ∨ w.commands = [] ∧ w.wantExit = false
  init : w.caller = .startSleeps → w.initFlag = true ∨ w.threadId = 0
  exit : w.caller = .stopSleeps → w.exitFlag = true ∨ w.threadCount > 0

structure Inv (w : CommandTask κ) : Prop where
  life : w.Life
  order : w.Order
  calls : w.Calls
  alert : w.Alert

theorem inv_init : (init : CommandTask κ).Inv where
  life := ⟨fun _ => ⟨rfl, rfl, .inl ⟨rfl, rfl⟩⟩, fun h => absurd rfl h,
    ⟨fun _ => rfl, fun h => absurd rfl h⟩, by simp [init]⟩
  order := ⟨rfl, rfl, rfl⟩
  calls := ⟨by simp [init], by simp [init], by simp [init], by simp [init, served, released],
    by simp [init]⟩
  alert := ⟨by simp [init], by simp [init], by simp [init]⟩

variable {w : CommandTask κ}

theorem Life.present (h : w.Life) (hsome : w.worker ≠ .absent) (hold : w.worker ≠ .spawned) :
    w.threadId ≠ 0 := by
  intro hzero
  obtain ⟨-, -, ⟨hworker, -⟩ | ⟨hworker, -⟩⟩ := h.stopped hzero
  · exact hsome hworker
  · exact hold hworker

/-- What the events of the callers leave as it is. -/
theorem Order.of_eq {w' : CommandTask κ} (h : w.Order) (hworker : inHand w'.worker = inHand w.worker)
    (hfinishing : finishing w'.worker = finishing w.worker) (hcommands : w'.commands = w.commands)
    (haccepted : w'.accepted = w.accepted) (hexecuted : w'.executed = w.executed)
    (hdestroyed : w'.destroyed = w.destroyed) : w'.Order := by
  constructor
  · rw [haccepted, hexecuted, hworker, hcommands]
    exact h.accepted
  · rw [hexecuted, hdestroyed, hfinishing]
    exact h.executed
  · rw [haccepted]
    exact h.tickets

/-- What the steps of the worker between two commands leave as it is. -/
theorem Calls.of_eq {w' : CommandTask κ} (h : w.Calls) (hblocked : w'.blocked = w.blocked)
    (hreturned : w'.returned = w.returned) (haccepted : w'.accepted = w.accepted)
    (hsignalled : w'.signalled = w.signalled) (hserved : w'.served = w.served) : w'.Calls := by
  constructor
  · rw [hblocked, hreturned, haccepted]
    exact h.called
  · rw [hblocked, hreturned]
    exact h.once
  · rw [hblocked, haccepted]
    exact h.blocking
  · rw [hserved, hsignalled, hreturned]
    exact h.signals
  · rw [hserved, hsignalled, hreturned]
    exact h.done

theorem Inv.start (h : w.Inv) (spawned : Bool) {next : CommandTask κ}
    (hstep : w.step (.start spawned) = some next) : next.Inv := by
  simp only [CommandTask.step] at hstep
  split at hstep
  · rename_i hcaller
    split at hstep
    · cases hstep
      exact h
    · rename_i hspawn
      cases hstep
      have hzero : w.threadId = 0 := by
        by_contra hid
        simp [hid] at hspawn
      obtain ⟨hexit, hcommands, hworker⟩ := h.life.stopped hzero
      have habsent : w.worker = .absent := by simpa [hcaller, starting] using hworker
      have hcount := h.life.count.1 habsent
      refine ⟨⟨fun _ => ⟨hexit, hcommands, .inr ⟨rfl, rfl⟩⟩, fun hid => absurd hzero hid,
        ⟨by simp, fun _ => by simp [hcount]⟩, by simp⟩, ?_, ?_, ⟨by simp, fun _ => .inr hzero, by simp⟩⟩
      · exact h.order.of_eq (by rw [habsent]; rfl) (by rw [habsent]; rfl) rfl rfl rfl rfl
      · exact h.calls.of_eq rfl rfl rfl rfl (by rw [served, served, habsent]; rfl)
  · cases hstep

theorem Inv.threadStarts (h : w.Inv) (id : Nat) {next : CommandTask κ}
    (hstep : w.step (.threadStarts id) = some next) : next.Inv := by
  simp only [CommandTask.step] at hstep
  split at hstep
  · rename_i hworker
    split at hstep
    · cases hstep
    · rename_i hid
      cases hstep
      have hzero : w.threadId = 0 := by
        by_contra hid
        exact (h.life.started hid).1 hworker
      obtain ⟨hexit, hcommands, hphase⟩ := h.life.stopped hzero
      have hstarting : starting w.caller = true := by simpa [hworker] using hphase
      have hnot : stopping w.caller = false := by cases hc : w.caller <;> simp_all [starting, stopping]
      have hcount := h.life.count.2 (by simp [hworker])
      refine ⟨⟨fun hzero => absurd hzero hid, fun _ => ⟨by simp, hexit.trans hnot.symm, by simp [loops]⟩,
        ⟨by simp, fun _ => hcount⟩, fun hends => ?_⟩, ?_, ?_, ⟨by simp, fun _ => .inl rfl,
        fun hsleeps => ?_⟩⟩
      · exact absurd (h.life.ended hends) (by simp [hworker])
      · exact h.order.of_eq (by rw [hworker]; rfl) (by rw [hworker]; rfl) rfl rfl rfl rfl
      · exact h.calls.of_eq rfl rfl rfl rfl (by rw [served, served, hworker]; rfl)
      · exact .inr (by simp [hcount])
  · cases hstep

theorem Inv.startTakes (h : w.Inv) {next : CommandTask κ}
    (hstep : w.step .startTakes = some next) : next.Inv := by
  simp only [CommandTask.step] at hstep
  split at hstep
  · rename_i htake
    cases hstep
    have hcaller := htake.1
    refine ⟨⟨fun hzero => ?_, fun hid => ?_, h.life.count, by simp⟩, h.order.of_eq rfl rfl rfl rfl rfl rfl,
      ⟨h.calls.called, h.calls.once, h.calls.blocking, h.calls.signals, h.calls.done⟩,
      ⟨h.alert.command, by simp, by simp⟩⟩
    · simpa [hcaller, starting] using h.life.stopped hzero
    · simpa [hcaller, stopping] using h.life.started hid
  · cases hstep

theorem Inv.startLooks (h : w.Inv) {next : CommandTask κ}
    (hstep : w.step .startLooks = some next) : next.Inv := by
  simp only [CommandTask.step] at hstep
  split at hstep
  · rename_i hcaller
    cases hstep
    refine ⟨⟨fun hzero => ?_, fun hid => ?_, h.life.count, ?_⟩, h.order.of_eq rfl rfl rfl rfl rfl rfl,
      ⟨h.calls.called, h.calls.once, h.calls.blocking, h.calls.signals, h.calls.done⟩,
      ⟨h.alert.command, ?_, ?_⟩⟩
    · obtain ⟨hexit, hcommands, hworker⟩ := h.life.stopped hzero
      refine ⟨hexit, hcommands, .inr ⟨by simpa [hcaller, starting] using hworker, ?_⟩⟩
      rw [if_pos hzero]
      rfl
    · have hphase := h.life.started hid
      simpa [hcaller, hid, stopping] using hphase
    · split <;> simp
    · by_cases hzero : w.threadId = 0 <;> simp [hzero]
    · split <;> simp
  · cases hstep

theorem Order.ticket_lt (h : w.Order) {c : TaskCommand κ} (hc : c ∈ w.accepted) :
    c.ticket < w.accepted.length := by
  have hmem := List.mem_map_of_mem (f := TaskCommand.ticket) hc
  rw [h.tickets] at hmem
  exact List.mem_range.mp hmem

theorem Inv.put (h : w.Inv) (command : κ) (blocking : Bool) {next : CommandTask κ}
    (hstep : w.step (.put command blocking) = some next) : next.Inv := by
  simp only [CommandTask.step] at hstep
  split at hstep
  · cases hstep
    exact h
  rename_i hopen
  cases hstep
  obtain ⟨hid, hexit⟩ : w.threadId ≠ 0 ∧ w.wantExit = false := by simpa using hopen
  obtain ⟨hspawned, hstopping, hloops⟩ := h.life.started hid
  have hfresh : w.accepted.length ∉ w.blocked ++ w.returned := by
    intro hmem
    obtain ⟨c, hc, hticket⟩ := h.calls.called _ hmem
    exact absurd (h.order.ticket_lt hc) (by omega)
  refine ⟨⟨fun hzero => absurd hzero hid, fun _ => ⟨hspawned, hstopping, fun hnot => ?_⟩, h.life.count,
    h.life.ended⟩, ⟨?_, h.order.executed, ?_⟩, ⟨?_, ?_, ?_, h.calls.signals, h.calls.done⟩,
    ⟨fun _ => .inl rfl, h.alert.init, h.alert.exit⟩⟩
  · exact absurd ((hloops hnot).1.symm.trans hexit) (by simp)
  · simp [h.order.accepted, List.append_assoc]
  · simp [h.order.tickets, List.range_succ]
  · intro ticket hticket
    by_cases hsame : ticket = w.accepted.length
    · exact ⟨_, List.mem_append_right _ (List.mem_singleton_self _), hsame.symm⟩
    · have hold : ticket ∈ w.blocked ++ w.returned := by
        cases blocking with
        | false => exact hticket
        | true => simpa [hsame] using hticket
      obtain ⟨c, hc, heq⟩ := h.calls.called ticket hold
      exact ⟨c, List.mem_append_left _ hc, heq⟩
  · cases blocking with
    | false => exact h.calls.once
    | true =>
      have hperm : (w.blocked ++ [w.accepted.length] ++ w.returned).Perm
          (w.accepted.length :: (w.blocked ++ w.returned)) := by
        simp
      exact hperm.nodup_iff.mpr (List.nodup_cons.mpr ⟨hfresh, h.calls.once⟩)
  · intro c hc hblocked
    obtain hold | hnew := List.mem_append.mp hc
    · refine h.calls.blocking c hold ?_
      have hlt := h.order.ticket_lt hold
      cases blocking with
      | false => exact hblocked
      | true => simpa [show c.ticket ≠ w.accepted.length by omega] using hblocked
    · cases List.mem_singleton.mp hnew
      cases blocking with
      | false => exact absurd (List.mem_append_left _ hblocked) hfresh
      | true => rfl

theorem Inv.putReturns (h : w.Inv) (ticket : Nat) {next : CommandTask κ}
    (hstep : w.step (.putReturns ticket) = some next) : next.Inv := by
  simp only [CommandTask.step] at hstep
  split at hstep
  · rename_i hready
    cases hstep
    have hperm : (w.blocked.erase ticket ++ (w.returned ++ [ticket])).Perm (w.blocked ++ w.returned) := by
      rw [← List.append_assoc]
      exact (List.perm_append_singleton ticket _).trans
        ((List.perm_cons_erase hready.1).symm.append_right w.returned)
    refine ⟨⟨h.life.stopped, h.life.started, h.life.count, h.life.ended⟩,
      h.order.of_eq rfl rfl rfl rfl rfl rfl, ⟨fun t ht => ?_, ?_, fun c hc hmem => ?_, fun c hc hb => ?_,
      fun t ht => ?_⟩, ⟨h.alert.command, h.alert.init, h.alert.exit⟩⟩
    · exact h.calls.called t (hperm.mem_iff.mp ht)
    · exact hperm.nodup_iff.mpr h.calls.once
    · exact h.calls.blocking c hc (List.mem_of_mem_erase hmem)
    · obtain hsignalled | hreturned := h.calls.signals c hc hb
      · by_cases hsame : c.ticket = ticket
        · exact .inr (by simp [hsame])
        · exact .inl ((List.mem_erase_of_ne hsame).mpr hsignalled)
      · exact .inr (List.mem_append_left _ hreturned)
    · refine h.calls.done t ?_
      obtain hsignalled | hreturned := List.mem_append.mp ht
      · exact List.mem_append_left _ (List.mem_of_mem_erase hsignalled)
      · obtain hold | hnew := List.mem_append.mp hreturned
        · exact List.mem_append_right _ hold
        · exact List.mem_append_left _ (List.mem_singleton.mp hnew ▸ hready.2)
  · cases hstep

theorem inHand_drain (commands : List (TaskCommand κ)) :
    inHand (drain commands) = commands ∧ finishing (drain commands) = [] ∧
      released (drain commands) = [] ∧ loops (drain commands) = false ∧ drain commands ≠ .absent ∧ drain commands ≠ .spawned ∧
      drain commands ≠ .asleep := by
  cases commands <;> simp [drain, inHand, finishing, released, loops]

theorem Inv.looks (h : w.Inv) {next : CommandTask κ} (hstep : w.step .looks = some next) :
    next.Inv := by
  simp only [CommandTask.step] at hstep
  split at hstep
  · rename_i hworker
    cases hstep
    have hid := h.life.present (by simp [hworker]) (by simp [hworker])
    obtain ⟨-, hstopping, -⟩ := h.life.started hid
    have hcount := h.life.count.2 (by simp [hworker])
    have haccepted := h.order.accepted
    have hexecuted := h.order.executed
    rw [hworker] at haccepted hexecuted
    have hended : w.caller ≠ .stopEnds := fun hends => by simpa [hworker] using h.life.ended hends
    unfold look
    split
    · rename_i hexit
      obtain ⟨hhand, hfinishing, hreleased, hloops, habsent, hspawned, hasleep⟩ := inHand_drain w.commands
      refine ⟨⟨fun hzero => absurd hzero hid, fun _ => ⟨hspawned, hstopping, fun _ => ⟨hexit, rfl⟩⟩,
        ⟨fun h => absurd h habsent, fun _ => hcount⟩, fun hends => absurd hends hended⟩, ⟨?_, ?_,
        h.order.tickets⟩, h.calls.of_eq rfl rfl rfl rfl (by rw [served, served, hworker, hreleased]; rfl),
        ⟨fun h => absurd h hasleep, h.alert.init, h.alert.exit⟩⟩
      · change w.accepted = w.executed ++ inHand (drain w.commands) ++ []
        rw [hhand, List.append_nil]
        simpa [inHand] using haccepted
      · change w.executed = w.destroyed ++ finishing (drain w.commands)
        rw [hfinishing]
        exact hexecuted
    · rename_i hexit
      split
      · rename_i hcommands
        refine ⟨⟨fun hzero => absurd hzero hid, fun _ => ⟨by simp, hstopping, by simp [loops]⟩,
          ⟨by simp, fun _ => hcount⟩, fun hends => absurd hends hended⟩, ⟨haccepted, hexecuted,
          h.order.tickets⟩, h.calls.of_eq rfl rfl rfl rfl (by rw [served, served, hworker]; rfl), ⟨fun _ => .inr ⟨hcommands, by simpa using hexit⟩, h.alert.init, h.alert.exit⟩⟩
      · rename_i c rest hcommands
        refine ⟨⟨fun hzero => absurd hzero hid, fun _ => ⟨by simp, hstopping, by simp [loops]⟩,
          ⟨by simp, fun _ => hcount⟩, fun hends => absurd hends hended⟩, ⟨?_, hexecuted,
          h.order.tickets⟩, h.calls.of_eq rfl rfl rfl rfl (by rw [served, served, hworker]; rfl), ⟨by simp, h.alert.init, h.alert.exit⟩⟩
        simpa [hcommands, inHand] using haccepted
  · cases hstep

theorem Inv.takes (h : w.Inv) {next : CommandTask κ} (hstep : w.step .takes = some next) :
    next.Inv := by
  simp only [CommandTask.step] at hstep
  split at hstep
  · rename_i hworker
    split at hstep
    · cases hstep
      have hid := h.life.present (by simp [hworker]) (by simp [hworker])
      obtain ⟨-, hstopping, -⟩ := h.life.started hid
      have hcount := h.life.count.2 (by simp [hworker])
      refine ⟨⟨fun hzero => absurd hzero hid, fun _ => ⟨by simp, hstopping, by simp [loops]⟩,
        ⟨by simp, fun _ => hcount⟩, fun hends => ?_⟩, ?_, ?_, ⟨by simp, h.alert.init, h.alert.exit⟩⟩
      · exact absurd (h.life.ended hends) (by simp [hworker])
      · exact h.order.of_eq (by rw [hworker]; rfl) (by rw [hworker]; rfl) rfl rfl rfl rfl
      · exact h.calls.of_eq rfl rfl rfl rfl (by rw [served, served, hworker]; rfl)
    · cases hstep
  · cases hstep

theorem Inv.execute (h : w.Inv) {next : CommandTask κ} (hstep : w.step .execute = some next) :
    next.Inv := by
  simp only [CommandTask.step] at hstep
  split at hstep
  · rename_i c rest hworker
    cases hstep
    have hid := h.life.present (by simp [hworker]) (by simp [hworker])
    obtain ⟨-, hstopping, hloops⟩ := h.life.started hid
    have hcount := h.life.count.2 (by simp [hworker])
    have haccepted := h.order.accepted
    have hexecuted := h.order.executed
    rw [hworker] at haccepted hexecuted
    refine ⟨⟨fun hzero => absurd hzero hid, fun _ => ⟨by simp, hstopping, fun hnot => hloops ?_⟩,
      ⟨by simp, fun _ => hcount⟩, fun hends => ?_⟩, ⟨?_, ?_, h.order.tickets⟩, ?_, ⟨by simp, h.alert.init,
      h.alert.exit⟩⟩
    · simpa [hworker, loops] using hnot
    · exact absurd (h.life.ended hends) (by simp [hworker])
    · simpa [inHand, List.append_assoc] using haccepted
    · simpa [finishing] using hexecuted
    · exact h.calls.of_eq rfl rfl rfl rfl (by rw [served, served, hworker]; rfl)
  · cases hstep

theorem Calls.signal (h : w.Calls) (c : TaskCommand κ) {w' : CommandTask κ}
    (hblocked : w'.blocked = w.blocked) (hreturned : w'.returned = w.returned)
    (haccepted : w'.accepted = w.accepted) (hserved : w'.served = w.served ++ [c])
    (hsignalled : w'.signalled = if c.blocking then w.signalled ++ [c.ticket] else w.signalled) :
    w'.Calls := by
  refine ⟨?_, ?_, ?_, fun d hd hb => ?_, fun t ht => ?_⟩
  · rw [hblocked, hreturned, haccepted]
    exact h.called
  · rw [hblocked, hreturned]
    exact h.once
  · rw [hblocked, haccepted]
    exact h.blocking
  · rw [hserved] at hd
    rw [hsignalled, hreturned]
    obtain hold | hnew := List.mem_append.mp hd
    · obtain hsignal | hreturn := h.signals d hold hb
      · left
        split
        · exact List.mem_append_left _ hsignal
        · exact hsignal
      · exact .inr hreturn
    · cases List.mem_singleton.mp hnew
      rw [if_pos hb]
      exact .inl (by simp)
  · rw [hsignalled, hreturned] at ht
    rw [hserved]
    by_cases hold : t ∈ w.signalled ++ w.returned
    · obtain ⟨d, hd, heq⟩ := h.done t hold
      exact ⟨d, List.mem_append_left _ hd, heq⟩
    · refine ⟨c, by simp, ?_⟩
      split at ht
      · simp only [List.mem_append, List.mem_singleton] at ht hold
        grind
      · exact absurd ht hold

theorem Inv.signal (h : w.Inv) {next : CommandTask κ} (hstep : w.step .signal = some next) :
    next.Inv := by
  simp only [CommandTask.step] at hstep
  split at hstep
  · rename_i c rest hworker
    cases hstep
    have hid := h.life.present (by simp [hworker]) (by simp [hworker])
    obtain ⟨-, hstopping, hloops⟩ := h.life.started hid
    have hcount := h.life.count.2 (by simp [hworker])
    refine ⟨⟨fun hzero => absurd hzero hid, fun _ => ⟨by simp, hstopping, fun hnot => hloops ?_⟩,
      ⟨by simp, fun _ => hcount⟩, fun hends => ?_⟩, ?_, ?_, ⟨by simp, h.alert.init, h.alert.exit⟩⟩
    · simpa [hworker, loops] using hnot
    · exact absurd (h.life.ended hends) (by simp [hworker])
    · exact h.order.of_eq (by rw [hworker]; rfl) (by rw [hworker]; rfl) rfl rfl rfl rfl
    · refine h.calls.signal c rfl rfl rfl ?_ rfl
      rw [served, served, hworker]
      simp [released]
  · cases hstep

theorem Inv.destroy (h : w.Inv) {next : CommandTask κ} (hstep : w.step .destroy = some next) :
    next.Inv := by
  simp only [CommandTask.step] at hstep
  split at hstep
  · rename_i c rest hworker
    cases hstep
    have hid := h.life.present (by simp [hworker]) (by simp [hworker])
    obtain ⟨-, hstopping, hloops⟩ := h.life.started hid
    have hcount := h.life.count.2 (by simp [hworker])
    have haccepted := h.order.accepted
    have hexecuted := h.order.executed
    have hended : w.caller ≠ .stopEnds := fun hends => by simpa [hworker] using h.life.ended hends
    have hserved : w.served = w.destroyed ++ [c] := by
      rw [served, hworker]
      rfl
    rw [hworker] at haccepted hexecuted hloops
    cases rest with
    | none =>
      refine ⟨⟨fun hzero => absurd hzero hid, fun _ => ⟨by simp, hstopping, by simp [loops]⟩,
        ⟨by simp, fun _ => hcount⟩, fun hends => absurd hends hended⟩, ⟨haccepted, ?_,
        h.order.tickets⟩, h.calls.of_eq rfl rfl rfl rfl (by rw [hserved]; simp [served, released]),
        ⟨by simp, h.alert.init, h.alert.exit⟩⟩
      simpa [finishing] using hexecuted
    | some rest =>
      obtain ⟨hhand, hfinishing, hreleased, hnot, habsent, hspawned, hasleep⟩ := inHand_drain rest
      obtain ⟨hexit, hcommands⟩ := hloops rfl
      refine ⟨⟨fun hzero => absurd hzero hid, fun _ => ⟨hspawned, hstopping, fun _ => ⟨hexit, hcommands⟩⟩,
        ⟨fun h => absurd h habsent, fun _ => hcount⟩, fun hends => absurd hends hended⟩, ⟨?_, ?_,
        h.order.tickets⟩, h.calls.of_eq rfl rfl rfl rfl (by rw [hserved]; simp [served, hreleased]),
        ⟨fun h => absurd h hasleep, h.alert.init, h.alert.exit⟩⟩
      · change w.accepted = w.executed ++ inHand (drain rest) ++ w.commands
        rw [hhand]
        exact haccepted
      · change w.executed = w.destroyed ++ [c] ++ finishing (drain rest)
        rw [hfinishing, List.append_nil]
        exact hexecuted
  · cases hstep

theorem Inv.stop (h : w.Inv) {next : CommandTask κ} (hstep : w.step .stop = some next) :
    next.Inv := by
  simp only [CommandTask.step] at hstep
  split at hstep
  · rename_i hcaller
    split at hstep
    · cases hstep
      exact h
    · rename_i hid
      cases hstep
      obtain ⟨hspawned, hstopping, hloops⟩ := h.life.started hid
      refine ⟨⟨fun hzero => absurd hzero hid, fun _ => ⟨hspawned, rfl, fun hnot => ⟨rfl, (hloops hnot).2⟩⟩,
        h.life.count, by simp⟩, h.order.of_eq rfl rfl rfl rfl rfl rfl, ⟨h.calls.called, h.calls.once,
        h.calls.blocking, h.calls.signals, h.calls.done⟩, ⟨fun _ => .inl rfl, by simp, by simp⟩⟩
  · cases hstep

theorem Inv.threadEnds (h : w.Inv) {next : CommandTask κ} (hstep : w.step .threadEnds = some next) :
    next.Inv := by
  simp only [CommandTask.step] at hstep
  split at hstep
  · rename_i hworker
    cases hstep
    have hid := h.life.present (by simp [hworker]) (by simp [hworker])
    obtain ⟨-, hstopping, hloops⟩ := h.life.started hid
    have hcount := h.life.count.2 (by simp [hworker])
    rw [hworker] at hloops
    refine ⟨⟨fun hzero => absurd hzero hid, fun _ => ⟨by simp, hstopping, fun _ => hloops rfl⟩,
      ⟨fun _ => by simp [hcount], by simp⟩, by simp⟩, ?_, ?_, ⟨by simp, h.alert.init, fun _ => .inl rfl⟩⟩
    · exact h.order.of_eq (by rw [hworker]; rfl) (by rw [hworker]; rfl) rfl rfl rfl rfl
    · exact h.calls.of_eq rfl rfl rfl rfl (by rw [served, served, hworker]; rfl)
  · cases hstep

theorem Inv.joinTakes (h : w.Inv) {next : CommandTask κ} (hstep : w.step .joinTakes = some next) :
    next.Inv := by
  simp only [CommandTask.step] at hstep
  split at hstep
  · rename_i htake
    cases hstep
    have hcaller := htake.1
    refine ⟨⟨fun hzero => ?_, fun hid => ?_, h.life.count, by simp⟩, h.order.of_eq rfl rfl rfl rfl rfl rfl,
      ⟨h.calls.called, h.calls.once, h.calls.blocking, h.calls.signals, h.calls.done⟩,
      ⟨h.alert.command, by simp, by simp⟩⟩
    · simpa [hcaller, starting] using h.life.stopped hzero
    · simpa [hcaller, stopping] using h.life.started hid
  · cases hstep

theorem Inv.joinLooks (h : w.Inv) {next : CommandTask κ} (hstep : w.step .joinLooks = some next) :
    next.Inv := by
  simp only [CommandTask.step] at hstep
  split at hstep
  · rename_i hcaller
    cases hstep
    have hid : w.threadId ≠ 0 := fun hzero => by
      have := (h.life.stopped hzero).2.2
      simp [hcaller, starting] at this
    obtain ⟨hspawned, hstopping, hloops⟩ := h.life.started hid
    rw [hcaller] at hstopping
    refine ⟨⟨fun hzero => absurd hzero hid, fun _ => ⟨hspawned, ?_, hloops⟩, h.life.count, fun hends => ?_⟩,
      h.order.of_eq rfl rfl rfl rfl rfl rfl, ⟨h.calls.called, h.calls.once, h.calls.blocking,
      h.calls.signals, h.calls.done⟩, ⟨h.alert.command, ?_, fun hsleeps => ?_⟩⟩
    · split <;> exact hstopping
    · by_contra hpresent
      simp [h.life.count.2 hpresent] at hends
    · split <;> simp
    · by_cases hcount : w.threadCount > 0
      · exact .inr hcount
      · simp [hcount] at hsleeps
  · cases hstep

theorem Inv.stopEnds (h : w.Inv) {next : CommandTask κ} (hstep : w.step .stopEnds = some next) :
    next.Inv := by
  simp only [CommandTask.step] at hstep
  split at hstep
  · rename_i hcaller
    cases hstep
    have habsent := h.life.ended hcaller
    have hid : w.threadId ≠ 0 := fun hzero => by
      have := (h.life.stopped hzero).2.2
      simp [hcaller, starting] at this
    have hcommands := ((h.life.started hid).2.2 (by rw [habsent]; rfl)).2
    exact ⟨⟨fun _ => ⟨rfl, hcommands, .inl ⟨habsent, rfl⟩⟩, fun h => absurd rfl h, h.life.count, by simp⟩,
      h.order.of_eq rfl rfl rfl rfl rfl rfl, ⟨h.calls.called, h.calls.once, h.calls.blocking,
      h.calls.signals, h.calls.done⟩, ⟨fun h => absurd (habsent.symm.trans h) (by simp), by simp, by simp⟩⟩
  · cases hstep

theorem Inv.step (h : w.Inv) (e : TaskEvent κ) {next : CommandTask κ} (hstep : w.step e = some next) :
    next.Inv := by
  cases e with
  | start spawned => exact h.start spawned hstep
  | threadStarts id => exact h.threadStarts id hstep
  | startTakes => exact h.startTakes hstep
  | startLooks => exact h.startLooks hstep
  | put command blocking => exact h.put command blocking hstep
  | putReturns ticket => exact h.putReturns ticket hstep
  | looks => exact h.looks hstep
  | takes => exact h.takes hstep
  | execute => exact h.execute hstep
  | signal => exact h.signal hstep
  | destroy => exact h.destroy hstep
  | stop => exact h.stop hstep
  | threadEnds => exact h.threadEnds hstep
  | joinTakes => exact h.joinTakes hstep
  | joinLooks => exact h.joinLooks hstep
  | stopEnds => exact h.stopEnds hstep

/-- The events of the task itself: the worker, and the calls that wait for it. -/
def Own : TaskEvent κ → Prop
  | .start _ => False
  | .put _ _ => False
  | .stop => False
  | _ => True

/-- What is left to do for a phase of the worker; each command costs it four steps. -/
def workerCost : WorkerPhase κ → Nat
  | .absent => 0
  | .asleep => 0
  | .ends => 4
  | .looks => 5
  | .spawned => 9
  | .executing _ rest => rest.elim 8 fun rest => 7 + 4 * rest.length
  | .executed _ rest => rest.elim 7 fun rest => 6 + 4 * rest.length
  | .signalled _ rest => rest.elim 6 fun rest => 5 + 4 * rest.length

def callerCost : CallerPhase → Nat
  | .nobody => 0
  | .startSleeps => 0
  | .stopSleeps => 0
  | .stopEnds => 1
  | .startLooks => 2
  | .stopLooks => 2

/-- An upper bound for the steps that the task can make by itself. -/
def cost (w : CommandTask κ) : Nat :=
  4 * w.commands.length + workerCost w.worker + callerCost w.caller + (if w.commandFlag then 6 else 0) +
    (if w.initFlag then 3 else 0) + (if w.exitFlag then 3 else 0) + w.blocked.length

theorem workerCost_drain (commands : List (TaskCommand κ)) :
    workerCost (drain commands) ≤ 4 * commands.length + 4 := by
  cases commands with
  | nil => simp [drain, workerCost]
  | cons c rest =>
    simp only [drain, workerCost, Option.elim, List.length_cons]
    omega

theorem cost_step {e : TaskEvent κ} (hown : Own e) {next : CommandTask κ}
    (hstep : w.step e = some next) : next.cost < w.cost := by
  cases e with
  | start spawned => exact hown.elim
  | put command blocking => exact hown.elim
  | stop => exact hown.elim
  | threadStarts id =>
    simp only [CommandTask.step] at hstep
    split at hstep
    · rename_i hworker
      split at hstep
      · cases hstep
      · cases hstep
        simp only [cost, hworker, workerCost, if_true]
        split <;> omega
    · cases hstep
  | startTakes =>
    simp only [CommandTask.step] at hstep
    split at hstep
    · rename_i htake
      cases hstep
      simp only [cost, htake.1, htake.2, callerCost, if_true, Bool.false_eq_true, if_false]
      omega
    · cases hstep
  | startLooks =>
    simp only [CommandTask.step] at hstep
    split at hstep
    · rename_i hcaller
      cases hstep
      have hcost : callerCost (if w.threadId = 0 then .startSleeps else .nobody) = 0 := by
        split <;> rfl
      have hbefore : callerCost w.caller = 2 := by rw [hcaller]; rfl
      simp only [cost, hcost, hbefore]
      omega
    · cases hstep
  | putReturns ticket =>
    simp only [CommandTask.step] at hstep
    split at hstep
    · rename_i hready
      cases hstep
      have := List.length_erase_add_one hready.1
      simp only [cost]
      omega
    · cases hstep
  | looks =>
    simp only [CommandTask.step] at hstep
    split at hstep
    · rename_i hworker
      cases hstep
      unfold look
      split
      · have hle := workerCost_drain w.commands
        have hbefore : workerCost w.worker = 5 := by rw [hworker]; rfl
        simp only [cost, hbefore, List.length_nil]
        omega
      · split
        · simp only [cost, hworker, workerCost]
          omega
        · rename_i hcommands
          simp only [cost, hworker, hcommands, workerCost, Option.elim, List.length_cons]
          omega
    · cases hstep
  | takes =>
    simp only [CommandTask.step] at hstep
    split at hstep
    · rename_i hworker
      split at hstep
      · rename_i hflag
        cases hstep
        simp only [cost, hworker, hflag, workerCost, if_true, Bool.false_eq_true, if_false]
        omega
      · cases hstep
    · cases hstep
  | execute =>
    simp only [CommandTask.step] at hstep
    split at hstep
    · rename_i c rest hworker
      cases hstep
      simp only [cost, hworker, workerCost]
      cases rest with
      | none => simp only [Option.elim]; omega
      | some rest => simp only [Option.elim]; omega
    · cases hstep
  | signal =>
    simp only [CommandTask.step] at hstep
    split at hstep
    · rename_i c rest hworker
      cases hstep
      simp only [cost, hworker, workerCost]
      cases rest with
      | none => simp only [Option.elim]; omega
      | some rest => simp only [Option.elim]; omega
    · cases hstep
  | destroy =>
    simp only [CommandTask.step] at hstep
    split at hstep
    · rename_i c rest hworker
      cases hstep
      cases rest with
      | none =>
        simp only [cost, hworker, workerCost, Option.elim]
        omega
      | some rest =>
        have hle := workerCost_drain rest
        have hbefore : workerCost w.worker = 5 + 4 * rest.length := by rw [hworker]; rfl
        simp only [cost, hbefore, Option.elim]
        omega
    · cases hstep
  | threadEnds =>
    simp only [CommandTask.step] at hstep
    split at hstep
    · rename_i hworker
      cases hstep
      simp only [cost, hworker, workerCost, if_true]
      split <;> omega
    · cases hstep
  | joinTakes =>
    simp only [CommandTask.step] at hstep
    split at hstep
    · rename_i htake
      cases hstep
      simp only [cost, htake.1, htake.2, callerCost, if_true, Bool.false_eq_true, if_false]
      omega
    · cases hstep
  | joinLooks =>
    simp only [CommandTask.step] at hstep
    split at hstep
    · rename_i hcaller
      cases hstep
      have hcost : callerCost (if w.threadCount > 0 then .stopSleeps else .stopEnds) ≤ 1 := by
        split <;> simp [callerCost]
      have hbefore : callerCost w.caller = 2 := by rw [hcaller]; rfl
      simp only [cost, hbefore]
      omega
    · cases hstep
  | stopEnds =>
    simp only [CommandTask.step] at hstep
    split at hstep
    · rename_i hcaller
      cases hstep
      simp only [cost, hcaller, callerCost]
      omega
    · cases hstep

/-- Every accepted command is executed and destroyed, and every call has returned. -/
structure Settled (w : CommandTask κ) : Prop where
  executed : w.executed = w.accepted
  destroyed : w.destroyed = w.accepted
  unblocked : w.blocked = []
  caller : w.caller = .nobody

/-- A worker that cannot go on sleeps, or is not there; its queue is empty. -/
theorem Inv.quiet_worker (h : w.Inv) (hquiet : ∀ e, Own e → w.step e = none) :
    (w.worker = .absent ∨ w.worker = .asleep ∧ w.wantExit = false) ∧ w.commands = [] := by
  have hids : (1 : Nat) ≠ 0 := Nat.one_ne_zero
  cases hphase : w.worker with
  | absent =>
    refine ⟨.inl rfl, ?_⟩
    by_cases hid : w.threadId = 0
    · exact (h.life.stopped hid).2.1
    · exact ((h.life.started hid).2.2 (by rw [hphase]; rfl)).2
  | asleep =>
    have htakes := hquiet .takes trivial
    simp only [CommandTask.step, hphase] at htakes
    obtain hflag | ⟨hcommands, hexit⟩ := h.alert.command hphase
    · simp [hflag] at htakes
    · exact ⟨.inr ⟨rfl, hexit⟩, hcommands⟩
  | spawned => simpa [CommandTask.step, hphase] using hquiet (.threadStarts 1) trivial
  | looks => simpa [CommandTask.step, hphase] using hquiet .looks trivial
  | executing c rest => simpa [CommandTask.step, hphase] using hquiet .execute trivial
  | executed c rest => simpa [CommandTask.step, hphase] using hquiet .signal trivial
  | signalled c rest => simpa [CommandTask.step, hphase] using hquiet .destroy trivial
  | ends => simpa [CommandTask.step, hphase] using hquiet .threadEnds trivial

theorem Inv.quiet_caller (h : w.Inv) (hquiet : ∀ e, Own e → w.step e = none) :
    w.caller = .nobody := by
  obtain ⟨hworker, -⟩ := h.quiet_worker hquiet
  cases hcaller : w.caller with
  | nobody => rfl
  | startSleeps =>
    have htakes := hquiet .startTakes trivial
    simp only [CommandTask.step, hcaller] at htakes
    obtain hflag | hzero := h.alert.init hcaller
    · simp [hflag] at htakes
    · -- The thread has been spawned and has yet to start.
      have hspawned := (h.life.stopped hzero).2.2
      obtain habsent | ⟨hasleep, -⟩ := hworker
      · simp [hcaller, habsent] at hspawned
      · simp [hasleep] at hspawned
  | startLooks => simpa [CommandTask.step, hcaller] using hquiet .startLooks trivial
  | stopLooks => simpa [CommandTask.step, hcaller] using hquiet .joinLooks trivial
  | stopSleeps =>
    have htakes := hquiet .joinTakes trivial
    simp only [CommandTask.step, hcaller] at htakes
    obtain hflag | hcount := h.alert.exit hcaller
    · simp [hflag] at htakes
    · -- The thread is there, and `m_wantExit` does not let it sleep.
      obtain habsent | ⟨hasleep, hexit⟩ := hworker
      · simp [h.life.count.1 habsent] at hcount
      · have hid := h.life.present (by simp [hasleep]) (by simp [hasleep])
        have hstopping := (h.life.started hid).2.1
        simp [hexit, hcaller, stopping] at hstopping
  | stopEnds => simpa [CommandTask.step, hcaller] using hquiet .stopEnds trivial

/-- A task that can do nothing by itself has nothing left to do. -/
theorem Inv.settled (h : w.Inv) (hquiet : ∀ e, Own e → w.step e = none) : w.Settled := by
  obtain ⟨hworker, hcommands⟩ := h.quiet_worker hquiet
  have hhand : inHand w.worker = [] ∧ finishing w.worker = [] := by
    obtain habsent | ⟨hasleep, -⟩ := hworker
    · simp [habsent, inHand, finishing]
    · simp [hasleep, inHand, finishing]
  have hexecuted : w.executed = w.accepted := by
    have haccepted := h.order.accepted
    rw [hhand.1, hcommands, List.append_nil, List.append_nil] at haccepted
    exact haccepted.symm
  have hdestroyed : w.destroyed = w.accepted := by
    have hsplit := h.order.executed
    rw [hhand.2, List.append_nil] at hsplit
    exact hsplit.symm.trans hexecuted
  refine ⟨hexecuted, hdestroyed, ?_, h.quiet_caller hquiet⟩
  by_contra hblocked
  obtain ⟨ticket, hticket⟩ := List.exists_mem_of_ne_nil _ hblocked
  obtain ⟨c, hc, heq⟩ := h.calls.called ticket (List.mem_append_left _ hticket)
  obtain hsignalled | hreturned := h.calls.signals c (List.mem_append_left _ (hdestroyed ▸ hc))
    (h.calls.blocking c hc (heq ▸ hticket))
  · have hreturns := hquiet (.putReturns ticket) trivial
    simp [CommandTask.step, hticket, heq ▸ hsignalled] at hreturns
  · exact (List.nodup_append.mp h.calls.once).2.2 ticket hticket ticket (heq ▸ hreturned) rfl

/-- Commands are executed one at a time in the order in which they were accepted, a stopped
task has executed and destroyed all of them, a blocking call returns once its command is
executed, and whatever has been begun comes to its end, in which order ever the threads go on. -/
structure Serves (w : CommandTask κ) : Prop where
  order : w.executed <+: w.accepted
  stopped : w.caller = .nobody → w.threadId = 0 → w.executed = w.accepted ∧ w.destroyed = w.accepted
  returned : ∀ ticket ∈ w.returned, ∃ c ∈ w.executed, c.ticket = ticket
  bounded : ∀ es next, (∀ e ∈ es, Own e) → run step w es = some next → es.length ≤ w.cost
  settled : (∀ e, Own e → w.step e = none) → w.Settled

theorem Inv.stopped (h : w.Inv) (hid : w.threadId = 0) (hcaller : w.caller = .nobody) :
    w.executed = w.accepted ∧ w.destroyed = w.accepted := by
  obtain ⟨-, hcommands, hworker⟩ := h.life.stopped hid
  have habsent : w.worker = .absent := by simpa [hcaller, starting] using hworker
  have haccepted := h.order.accepted
  have hexecuted := h.order.executed
  rw [habsent] at haccepted hexecuted
  have hsame : w.executed = w.accepted := by simpa [inHand, hcommands] using haccepted.symm
  have hdestroyed : w.executed = w.destroyed := by simpa [finishing] using hexecuted
  exact ⟨hsame, hdestroyed ▸ hsame⟩

/-- A caller that may go on finds its command executed, if not destroyed. -/
theorem Inv.executed_of_served (h : w.Inv) {c : TaskCommand κ} (hc : c ∈ w.served) : c ∈ w.executed := by
  rw [h.order.executed]
  obtain hdestroyed | hreleased := List.mem_append.mp hc
  · exact List.mem_append_left _ hdestroyed
  · refine List.mem_append_right _ ?_
    cases hworker : w.worker with
    | signalled c' rest =>
      rw [hworker] at hreleased
      exact hreleased
    | _ =>
      rw [hworker] at hreleased
      cases hreleased

/-- In every run, with `Start` and `Stop` any number of times. -/
theorem serves_of_task_run {es : List (TaskEvent κ)} (hrun : run step init es = some w) : w.Serves := by
  have hinv : w.Inv := run_preserves (fun w e next h _ hstep => h.step e hstep) inv_init
    (guarded_true init es) hrun
  refine ⟨⟨inHand w.worker ++ w.commands, ?_⟩, fun hcaller hid => hinv.stopped hid hcaller,
    fun ticket ht => ?_, fun es next hown hmore => ?_, hinv.settled⟩
  · rw [← List.append_assoc]
    exact hinv.order.accepted.symm
  · obtain ⟨c, hc, hticket⟩ := hinv.calls.done ticket (List.mem_append_right _ ht)
    exact ⟨c, hinv.executed_of_served hc, hticket⟩
  · have hcost := length_le_of_decreases (fun _ _ _ hown hstep => cost_step hown hstep) hown hmore
    omega

/-- `Stop` comes while the first command runs and the second, blocking one waits; the
blocking call returns before its command is destroyed. -/
def stoppedBusy : List (TaskEvent Nat) :=
  [.start true, .threadStarts 9, .startTakes, .startLooks, .put 10 false, .put 20 true, .looks, .stop,
    .put 30 false, .execute, .joinLooks, .signal, .destroy, .looks, .execute, .signal, .putReturns 1,
    .destroy, .threadEnds, .joinTakes, .joinLooks, .stopEnds]

theorem serves_of_task_run_stoppedBusy : ∃ w, run step init stoppedBusy = some w ∧ w.Serves ∧
    w.executed.map TaskCommand.command = [10, 20] ∧ w.returned = [1] := by
  obtain ⟨w, hrun⟩ := Option.isSome_iff_exists.mp
    (show (run step init stoppedBusy).isSome = true by decide)
  have hvalue : (run step init stoppedBusy).map (fun w => (w.executed.map TaskCommand.command, w.returned)) =
      some ([10, 20], [1]) := by decide
  rw [hrun] at hvalue
  have hpair := Option.some.inj hvalue
  exact ⟨w, hrun, serves_of_task_run hrun, congrArg Prod.fst hpair, congrArg Prod.snd hpair⟩

end CommandTask

end Pronet.Util
