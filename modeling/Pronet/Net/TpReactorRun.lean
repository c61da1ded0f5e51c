import Pronet.Net.TpReactorTask

/-! Every run of a `CProTpReactorTask`: its threads begin and end at any time, and handlers are added
and removed in between. `Start` comes to its end once the threads have begun; whether the workers
wake up for `Stop` is not said here. -/
namespace Pronet.Net.TpReactorTask

open Std Library Runs

variable {isConnector : Nat → Bool} {w : TpReactorTask}

theorem slots_succ (count : Nat) :
    slots count ++ [if count + 1 ≤ 1 then none else some (count + 1 - 2)] = slots (count + 1) := by
  unfold slots
  rw [List.range_succ, List.map_append, List.map_singleton]
  congr 2
  split
  · rw [if_pos (by omega)]
  · rw [if_neg (by omega)]
    rfl

/-- What the threads and the callers of `Start` and `Stop` leave alone. -/
theorem Inv.relife (h : w.Inv isConnector) {next : TpReactorTask} (hlife : next.Life)
    (haccept : next.acceptReactor = w.acceptReactor) (hio : next.ioReactors = w.ioReactors)
    (hexit : next.wantExit = w.wantExit) (hhandlers : next.handlers = w.handlers)
    (htotal : next.total = w.total) : next.Inv isConnector := by
  have hsame : ∀ handler, next.handlerOf handler = w.handlerOf handler := by
    intro handler
    unfold handlerOf
    rw [hhandlers]
  refine ⟨hlife, ?_, ?_, ?_, ?_, ?_, ?_⟩
  · rw [hio, hexit]
    exact h.live
  · rw [haccept, hexit]
    exact h.accept
  · intro i r hr fd handler held hentry hapart
    rw [hio] at hr
    rw [hsame]
    exact h.entry i r hr fd handler held hentry hapart
  · intro hne handler i hin
    rw [hsame] at hin ⊢
    rw [hio]
    exact h.held (htotal ▸ hne) handler i hin
  · intro handler
    rw [hsame]
    exact h.reactor handler
  · intro handler
    rw [hsame]
    exact h.masks handler

theorem Life.total_ne (h : w.Life) (hthreads : 0 < w.threads) : w.total ≠ 0 := by
  have := h.cur
  omega

theorem Inv.svc (h : w.Inv isConnector) (hready : w.begun.length < w.threads) : w.svc.Inv isConnector := by
  have hcur := h.life.cur
  have hbegun : w.curThreadCount < w.threads := by
    rw [h.life.begun] at hready
    unfold slots at hready
    rw [List.length_map, List.length_range] at hready
    exact hready
  have htotal := h.life.total_ne (Nat.zero_lt_of_lt hbegun)
  have hstarted := h.life.started htotal
  refine h.relife ?_ rfl rfl rfl rfl rfl
  refine ⟨fun hzero => absurd hzero htotal, fun _ => hstarted, ?_, ⟨hbegun, hcur.2⟩, h.life.reactors,
    h.life.starting, fun _ => .inl rfl, fun hnobody => ?_, h.life.exiting, Nat.le_succ_of_le h.life.ended⟩
  · unfold TpReactorTask.svc
    dsimp only
    rw [hstarted.1, h.life.begun]
    exact slots_succ w.curThreadCount
  · have := h.life.running hnobody
    omega

theorem Inv.startTakes (h : w.Inv isConnector) (hstarting : w.caller = .starting) :
    Inv isConnector { w with initFlag := false, caller := .looking } := by
  refine h.relife ?_ rfl rfl rfl rfl rfl
  refine ⟨fun hzero => ?_, h.life.started, h.life.begun, h.life.cur, h.life.reactors,
    fun _ => h.life.starting (.inl hstarting), fun hnot => ?_, fun hnot => ?_, ?_, h.life.ended⟩
  · have hcaller := (h.life.stopped hzero).2.1
    rw [hstarting] at hcaller
    cases hcaller
  · cases hnot
  · cases hnot
  · have hexit := h.life.exiting
    rw [hstarting] at hexit
    refine hexit.trans ⟨fun hnot => ?_, fun hnot => ?_⟩
    · cases hnot
    · cases hnot

theorem Inv.startLooks (h : w.Inv isConnector) (hlooking : w.caller = .looking) :
    Inv isConnector { w with caller := if w.curThreadCount < w.total then .starting else .nobody } := by
  have hcur := h.life.cur
  have hstarting := h.life.starting (.inr hlooking)
  have hexit : w.wantExit = false := by
    by_contra hexit
    rw [Bool.not_eq_false, h.life.exiting, hlooking] at hexit
    cases hexit
  refine h.relife ?_ rfl rfl rfl rfl rfl
  refine ⟨fun hzero => ?_, h.life.started, h.life.begun, hcur, h.life.reactors, fun _ => hstarting,
    fun hsleeps => ?_, fun hnobody => ?_, ?_, h.life.ended⟩
  · have hcaller := (h.life.stopped hzero).2.1
    rw [hlooking] at hcaller
    cases hcaller
  · dsimp only at hsleeps
    split at hsleeps
    · rename_i hless
      exact .inr hless
    · cases hsleeps
  · dsimp only at hnobody
    split at hnobody
    · cases hnobody
    · rename_i hall
      show w.curThreadCount = w.total
      omega
  · show w.wantExit = true ↔ _
    rw [hexit]
    dsimp only
    split <;> simp

theorem Inv.svcEnds (h : w.Inv isConnector) (hready : w.ended < w.begun.length) :
    Inv isConnector { w with ended := w.ended + 1 } := by
  refine h.relife ?_ rfl rfl rfl rfl rfl
  refine ⟨h.life.stopped, h.life.started, h.life.begun, h.life.cur, h.life.reactors, h.life.starting,
    h.life.alert, h.life.running, h.life.exiting, ?_⟩
  rw [h.life.begun] at hready
  unfold slots at hready
  rw [List.length_map, List.length_range] at hready
  exact hready

theorem Inv.stopEnds (h : w.Inv isConnector) : w.stopEnds.Inv isConnector where
  life := by
    refine ⟨fun _ => ⟨rfl, rfl, rfl, rfl⟩, fun h => absurd rfl h, rfl, ⟨Nat.le_refl _, Nat.le_refl _⟩,
      fun h => absurd h (Nat.lt_irrefl 0), fun h => ?_, fun h => ?_, fun _ => rfl,
      ⟨fun h => ?_, fun h => ?_⟩, Nat.le_refl _⟩
    · rcases h with h | h <;> cases h
    · cases h
    · cases h
    · cases h
  live r hr := absurd hr List.not_mem_nil
  accept := (inv_init isConnector).accept
  entry i r hr := by cases hr
  held hne := absurd rfl hne
  reactor := h.reactor
  masks := h.masks

theorem Inv.stopMe (h : w.Inv isConnector) : w.stopMe.Inv isConnector := by
  unfold TpReactorTask.stopMe
  split
  · rename_i hzero
    have hnobody := (h.life.stopped hzero).2.1
    have hsame : ({ w with caller := .nobody } : TpReactorTask) = w := by
      rw [← hnobody]
    rw [hsame]
    exact h
  · rename_i htotal
    have hget : ∀ (i : Nat) (r : TaskReactor), (w.ioReactors.map TaskReactor.fini)[i]? = some r →
        ∃ r', w.ioReactors[i]? = some r' ∧ r = r'.fini := by
      intro i r hr
      rw [List.getElem?_map] at hr
      obtain ⟨r', hr', heq⟩ := Option.map_eq_some_iff.mp hr
      exact ⟨r', hr', heq.symm⟩
    refine ⟨?_, ?_, ?_, ?_, ?_, h.reactor, h.masks⟩
    · refine ⟨fun hzero => absurd hzero htotal, h.life.started, h.life.begun, h.life.cur, fun hthreads => ?_,
        fun hnot => ?_, fun hnot => ?_, fun hnot => ?_, ⟨fun _ => rfl, fun _ => rfl⟩, h.life.ended⟩
      · exact (List.length_map _).trans (h.life.reactors hthreads)
      · rcases hnot with hnot | hnot <;> cases hnot
      · cases hnot
      · cases hnot
    · intro r hr
      obtain ⟨r', hr', rfl⟩ := List.mem_map.mp hr
      exact ⟨(h.live r' hr').1.fini, rfl⟩
    · intro r hr
      obtain ⟨r', hr', rfl⟩ := Option.mem_map.mp hr
      exact ⟨(h.accept r' hr').1.fini, rfl⟩
    · intro i r hr fd handler held hentry hapart
      obtain ⟨r', hr', rfl⟩ := hget i r hr
      exact h.entry i r' hr' fd handler held hentry hapart
    · intro _ handler i hin
      obtain ⟨r, hr, hapart, hentry⟩ := h.held htotal handler i hin
      exact ⟨r.fini, by rw [List.getElem?_map, hr]; rfl, hapart, hentry⟩

theorem handlerOf_reactor (w : TpReactorTask) (hgone : ∀ entry ∈ w.handlers.toList, entry.2.reactor = none)
    (handler : Nat) : (w.handlerOf handler).reactor = none := by
  unfold handlerOf
  cases hget : w.handlers[handler]? with
  | none => rfl
  | some state => exact hgone (handler, state) (ExtTreeMap.mem_toList_iff_getElem?_eq_some.mpr hget)

/-- The reactors that `Start` makes have their own pipes and nothing else. -/
theorem made_live {pipes : List (Int × Nat)} (hpipes : ∀ pipe ∈ pipes, pipe.1 ≠ -1 ∧ asFd pipe.1 = pipe.1)
    {count : Nat} {r : TaskReactor}
    (hr : r ∈ (pipes.take count).map fun (pipe, self) => (⟨pipe, .init pipe self⟩ : TaskReactor)) :
    r.Live ∧ r.reactor.wantExit = false ∧ ∀ fd ≠ r.pipe, r.entries fd = none := by
  obtain ⟨⟨pipe, self⟩, hmem, rfl⟩ := List.mem_map.mp hr
  obtain ⟨hpipe, hfd⟩ := hpipes _ (List.mem_of_mem_take hmem)
  obtain ⟨hlive, hentries⟩ := TaskReactor.live_init self hpipe hfd
  refine ⟨hlive, (EpollReactor.init_inv self hpipe hfd).open_.2, fun fd hne => ?_⟩
  rw [hentries]
  exact Function.update_of_ne hne _ _

theorem Inv.start (h : w.Inv isConnector) (hnobody : w.caller = .nobody) {pipes : List (Int × Nat)}
    (hpipes : ∀ pipe ∈ pipes, pipe.1 ≠ -1 ∧ asFd pipe.1 = pipe.1)
    (hgone : ∀ entry ∈ w.handlers.toList, entry.2.reactor = none) (ioThreadCount spawned : Nat) (timers : Bool) :
    Inv isConnector (w.start ioThreadCount pipes spawned timers) := by
  unfold TpReactorTask.start
  split
  · exact h
  · rename_i hcount
    split
    · exact h
    · rename_i htotal
      rw [not_not] at htotal
      obtain ⟨hthreads, -, hexit, -⟩ := h.life.stopped htotal
      have hcur : w.curThreadCount = 0 := (h.life.running hnobody).trans htotal
      have hended : w.ended = 0 := Nat.le_zero.mp (hcur ▸ h.life.ended)
      have hmade := @made_live pipes hpipes (1 + ioThreadCount)
      have hnone := w.handlerOf_reactor hgone
      dsimp only
      generalize ((pipes.take (1 + ioThreadCount)).map fun (pipe, self) =>
        (⟨pipe, .init pipe self⟩ : TaskReactor)) = reactors at hmade ⊢
      -- all but how far the task has come
      have hnext : ∀ (caller : TaskCaller) (threads : Nat), Life { w with
          acceptThreadCount := 1
          ioThreadCount := ioThreadCount
          acceptReactor := reactors.head?
          ioReactors := reactors.tail
          caller := caller
          threads := threads } → Inv isConnector { w with
          acceptThreadCount := 1
          ioThreadCount := ioThreadCount
          acceptReactor := reactors.head?
          ioReactors := reactors.tail
          caller := caller
          threads := threads } := by
        intro caller threads hlife
        refine ⟨hlife, ?_, ?_, ?_, ?_, h.reactor, h.masks⟩
        · intro r hr
          obtain ⟨hlive, hflag, -⟩ := hmade (List.mem_of_mem_tail hr)
          exact ⟨hlive, hflag.trans hexit.symm⟩
        · intro r hr
          obtain ⟨hlive, hflag, -⟩ := hmade (List.mem_of_mem_head? hr)
          exact ⟨hlive, hflag.trans hexit.symm⟩
        · intro i r hr fd handler held hentry hapart
          rw [(hmade (List.mem_of_mem_tail (List.mem_of_getElem? hr))).2.2 fd hapart] at hentry
          cases hentry
        · intro _ handler i hin
          have hin : (w.handlerOf handler).reactor = some i := hin
          rw [hnone] at hin
          cases hin
      have htotal' : ∀ next : TpReactorTask, next.acceptThreadCount = 1 → next.ioThreadCount = ioThreadCount →
          next.total ≠ 0 := by
        intro next haccept _
        unfold total
        omega
      split
      · refine hnext .failed w.threads ⟨fun hzero => absurd hzero (htotal' _ rfl rfl), fun _ => ⟨rfl, ?_⟩,
          h.life.begun, ⟨h.life.cur.1, ?_⟩, fun hpos => ?_, fun hnot => ?_, fun hnot => ?_, fun hnot => ?_, ?_,
          h.life.ended⟩
        · exact Nat.pos_of_ne_zero hcount
        · show w.threads ≤ _
          rw [hthreads]
          exact Nat.zero_le _
        · exact absurd hthreads (Nat.ne_of_gt hpos)
        · rcases hnot with hnot | hnot <;> cases hnot
        · cases hnot
        · cases hnot
        · show w.wantExit = true ↔ _
          rw [hexit]
          simp
      · rename_i hlength
        rw [not_not] at hlength
        refine hnext _ _ ⟨fun hzero => absurd hzero (htotal' _ rfl rfl), fun _ => ⟨rfl, ?_⟩,
          h.life.begun, ⟨?_, ?_⟩, fun _ => ?_, fun hstarting => ?_, fun _ => .inr ?_, fun hnot => ?_, ?_,
          h.life.ended⟩
        · exact Nat.pos_of_ne_zero hcount
        · show w.curThreadCount ≤ _
          rw [hcur]
          exact Nat.zero_le _
        · exact Nat.min_le_right _ _
        · show reactors.tail.length = ioThreadCount
          rw [List.length_tail, hlength]
          omega
        · dsimp only at hstarting
          split at hstarting
          · rename_i hall
            simp only [Bool.and_eq_true, decide_eq_true_eq] at hall
            exact hall.1
          · rcases hstarting with hnot | hnot <;> cases hnot
        · show w.curThreadCount < 1 + ioThreadCount
          omega
        · dsimp only at hnot
          split at hnot
          · cases hnot
          · cases hnot
        · show w.wantExit = true ↔ _
          rw [hexit]
          dsimp only
          split
          · simp
          · simp

theorem Inv.step {call : TaskCall} {next : TpReactorTask} (h : w.Inv isConnector) (howned : Owned isConnector w call)
    (hstep : w.step call = some next) : next.Inv isConnector := by
  cases call with
  | start ioThreadCount pipes spawned timers =>
    simp only [TpReactorTask.step] at hstep
    split at hstep
    · rename_i hnobody
      cases hstep
      exact h.start hnobody howned.1 howned.2 ioThreadCount spawned timers
    · cases hstep
  | svc =>
    simp only [TpReactorTask.step] at hstep
    split at hstep
    · rename_i hready
      cases hstep
      exact h.svc hready
    · cases hstep
  | startTakes =>
    simp only [TpReactorTask.step] at hstep
    split at hstep
    · rename_i hready
      cases hstep
      exact h.startTakes hready.1
    · cases hstep
  | startLooks =>
    simp only [TpReactorTask.step] at hstep
    split at hstep
    · rename_i hready
      cases hstep
      exact h.startLooks hready
    · cases hstep
  | stopMe =>
    simp only [TpReactorTask.step] at hstep
    split at hstep
    · cases hstep
      exact h.stopMe
    · cases hstep
  | stop =>
    simp only [TpReactorTask.step] at hstep
    split at hstep
    · cases hstep
      exact h.stopMe
    · cases hstep
  | svcEnds =>
    simp only [TpReactorTask.step] at hstep
    split at hstep
    · rename_i hready
      cases hstep
      exact h.svcEnds hready.2
    · cases hstep
  | stopEnds =>
    simp only [TpReactorTask.step] at hstep
    split at hstep
    · cases hstep
      exact h.stopEnds
    · cases hstep
  | addHandler sockId handler mask able able' =>
    simp only [TpReactorTask.step] at hstep
    cases hstep
    exact h.addHandler howned able able'
  | removeHandler sockId handler mask =>
    simp only [TpReactorTask.step] at hstep
    cases hstep
    exact h.removeHandler howned

/-- The steps of the threads that begin, and of the caller of `Start` that waits for them. -/
def Starts : TaskCall → Prop
  | .svc => True
  | .startTakes => True
  | .startLooks => True
  | _ => False

/-- What is left to do until all threads have begun and nobody waits for that. -/
def cost (w : TpReactorTask) : Nat :=
  3 * (w.threads - w.begun.length) + (if w.initFlag then 2 else 0) + (if w.caller = .looking then 1 else 0)

theorem cost_step {call : TaskCall} (hown : Starts call) {next : TpReactorTask}
    (hstep : w.step call = some next) : next.cost < w.cost := by
  cases call with
  | svc =>
    simp only [TpReactorTask.step] at hstep
    split at hstep
    · rename_i hready
      cases hstep
      unfold TpReactorTask.svc cost
      simp only [List.length_append, List.length_singleton, if_true]
      omega
    · cases hstep
  | startTakes =>
    simp only [TpReactorTask.step] at hstep
    split at hstep
    · rename_i hready
      cases hstep
      unfold cost
      simp [hready.1, hready.2]
    · cases hstep
  | startLooks =>
    simp only [TpReactorTask.step] at hstep
    split at hstep
    · rename_i hready
      cases hstep
      have hleft : (if w.curThreadCount < w.total then TaskCaller.starting else .nobody) ≠ .looking := by
        split <;> simp
      unfold cost
      simp only [hready, if_true, if_neg hleft]
      omega
    · cases hstep
  | _ => exact hown.elim

/-- Once the threads have begun, `Start` waits no longer. -/
theorem Inv.started (h : w.Inv isConnector) (hquiet : ∀ call, Starts call → w.step call = none) :
    w.caller ≠ .starting ∧ w.caller ≠ .looking := by
  have hbegun : w.begun.length = w.curThreadCount := by
    rw [h.life.begun]
    unfold slots
    rw [List.length_map, List.length_range]
  have hall : w.threads ≤ w.begun.length := by
    have hsvc := hquiet .svc trivial
    simp only [TpReactorTask.step] at hsvc
    split at hsvc
    · cases hsvc
    · omega
  refine ⟨fun hstarting => ?_, fun hlooking => ?_⟩
  · have hthreads := h.life.starting (.inl hstarting)
    have htakes := hquiet .startTakes trivial
    simp only [TpReactorTask.step] at htakes
    rcases h.life.alert hstarting with hflag | hless
    · rw [if_pos ⟨hstarting, hflag⟩] at htakes
      cases htakes
    · omega
  · have hlooks := hquiet .startLooks trivial
    simp only [TpReactorTask.step] at hlooks
    rw [if_pos hlooking] at hlooks
    cases hlooks

end Pronet.Net.TpReactorTask
