import PlatIF.Evt.Locks

/-!
# What the return of `PLT_EVT_disableEvtManger` promises

The call joins the processor and frees its queue.  Posts that still have the pointer in hand may come later, and end the
process there; so may steps of the other calls; but no event is accepted, taken, looked at or handed to a callback until
the manager is enabled.

* `freedInv_reach` — a queue that is not the current one was freed, after its processor had ended;
* `queues_accounted` — what was created by enabling and reclaimed by disabling;
* `stopped_trans` — what a step can do while there is no queue;
* `disable_barrier` — the return of the call, and the run after it.
-/

namespace PlatIF.Evt

variable {abi : Abi} {s s' s'' : State abi} {t : Thread} {a : Act abi} {env : Env} {clients q : ℕ}
  {ok : State abi → Thread × Act abi → Prop}

/-! ### Queues of the past -/

/-- Every queue but the current one was freed, after its processor had ended. -/
def FreedInv (s : State abi) : Prop :=
  ∀ q, q < s.nextQueue → s.evtQueue ≠ some q → (s.queues q).freed = true ∧ s.procer q = .ended

/-- A queue of the past stays as it is while others are set up or stopped. -/
theorem LifeStep.freed {c : Call abi} (h : LifeStep s t c s') (hlt : q < s.nextQueue)
    (hf : (s.queues q).freed = true) : (s'.queues q).freed = true := by
  cases h with
  | enable => simpa [Function.update_of_ne hlt.ne] using hf
  | @initMutex p | @initCond p | @destroyMutex p | @destroyCond p =>
    by_cases hq : q = p
    · subst hq
      simpa using hf
    · simpa [Function.update_of_ne hq] using hf
  | @free p =>
    by_cases hq : q = p
    · subst hq
      simp
    · simpa [Function.update_of_ne hq] using hf
  | create | enabled | disable | clear | disabled => exact hf

theorem LifeStep.freedInv {c : Call abi} (hL : LiveInv s) (hc : s.calls t = some c) (hF : FreedInv s)
    (h : LifeStep s t c s') : FreedInv s' := by
  intro q hlt hne
  have hP := hL.phase t c hc
  -- a queue that was gone before the step
  have hold : q < s.nextQueue → s.evtQueue ≠ some q → (s'.queues q).freed = true ∧ s'.procer q = .ended := by
    intro hlt hne
    obtain ⟨hf, he⟩ := hF q hlt hne
    exact ⟨h.freed hlt hf, (h.procer_eq hL hc (by simp [he])).trans he⟩
  cases h with
  | enable hw hs hq hf =>
    obtain ⟨rfl, h0⟩ := hL.life.firstFree hf
    have hnone : s.evtQueue = none := by simp [State.evtQueue, hq, h0]
    by_cases hnew : q = s.nextQueue
    · exact absurd (by simp [State.evtQueue, Table.set, hnew]) hne
    · have hlt : q < s.nextQueue + 1 := hlt
      exact hold (by omega) (by simp [hnone])
  | @clear p =>
    obtain ⟨-, -, he, hf⟩ := hP
    by_cases hq : q = p
    · subst hq
      exact ⟨hf, he⟩
    · refine hold hlt fun hcur => hq ?_
      exact Option.some.inj (hcur.symm.trans (hL.phase t _ hc).2.1)
  | initMutex | initCond | create | enabled | disable | destroyMutex | destroyCond | free | disabled =>
    exact hold hlt hne

theorem freedInv_trans (hL : LiveInv s) (hX : StateLock s) (hF : FreedInv s) (h : Trans s t a s') : FreedInv s' := by
  rcases h.ordinary hL hX with ho | ⟨env, c, -, hc, hl⟩
  · intro q hlt hne
    obtain ⟨hf, he⟩ := hF q (ho.nextQueue ▸ hlt) (ho.queue ▸ hne)
    exact ⟨(ho.sameLife q).freed.trans hf, h.ended hL hX he⟩
  · exact hl.freedInv hL hc hF

theorem freedInv_reach (h : Reach ok clients s) : FreedInv s :=
  h.induction (P := FreedInv) (fun q hlt => absurd hlt (Nat.not_lt_zero q)) fun _ _ _ _ hr hF _ _ h =>
    freedInv_trans (liveInv_reach hr) (stateLock_reach hr) hF h

/-- How the queues and the processors that were ever created are accounted for. -/
structure QueuesAccounted (s : State abi) : Prop where
  /-- The current queue is one of those created, and every other one was freed, after its processor had ended. -/
  current : ∀ q, s.evtQueue = some q → q < s.nextQueue
  gone : ∀ q, q < s.nextQueue → s.evtQueue ≠ some q → (s.queues q).freed = true ∧ s.procer q = .ended
  /-- A processor that has not ended works with the current queue, which is initialized and not destroyed. -/
  alive : ∀ q, (s.procer q).alive → s.evtQueue = some q ∧ (s.queues q).Usable
  /-- Outside the calls that enable or disable there is a queue exactly while the manager runs, and it has its
  processor, since `pthread_create` is taken to succeed. -/
  running : s.Settled → (s.evtQueue ≠ none ↔ s.manger.state = .running)
  settled : s.Settled → ∀ q, s.evtQueue = some q → s.procer q ≠ .absent ∧ (s.queues q).Usable
  /-- In the middle of them one thread has the state locked, and the queue is set up or stopped as far as it has come. -/
  single : ∀ t u c d, s.calls t = some c → s.calls u = some d → c.holdsState = true → d.holdsState = true → t = u
  phase : ∀ t c, s.calls t = some c → s.Phase c
  /-- A queue that is about to be freed is in use and not freed yet. -/
  once : ∀ t q, s.calls t = some (.disableEvtManger (.free q)) → s.evtQueue = some q ∧ (s.queues q).freed = false

/-- **Queues and processors are accounted for.**  However often the manager is enabled and disabled, and by whom, at most
one queue is current, and outside of these calls exactly while the manager runs; all the others were freed with their
processors joined, and none is freed twice. -/
theorem queues_accounted (h : Reach ok clients s) : QueuesAccounted s := by
  have hL := liveInv_reach h
  have hX := stateLock_reach h
  constructor
  case current => exact hL.current
  case gone => exact freedInv_reach h
  case alive => exact hL.live
  case running => exact hL.running
  case settled => exact hL.usable
  case single =>
    intro t u c d hc hd hxc hxd
    exact Option.some.inj ((hX t c hc hxc).symm.trans (hX u d hd hxd))
  case phase => exact hL.phase
  case once =>
    intro t q hc
    obtain ⟨-, hq, -, -, -, hf⟩ := hL.phase t _ hc
    exact ⟨hq, hf⟩

/-- The manager was enabled twice. -/
theorem queues_accounted_twice : ∃ s : State lp64, s.nextQueue = 2 ∧ s.evtQueue = some 1 ∧ (s.queues 1).Usable ∧
    (s.queues 0).freed = true ∧ s.procer 0 = .ended := by
  obtain ⟨s, hr, hs⟩ := reach_of_run (fun _ _ => True) 1
    (startedDefault ++ [(.procer 0, .go)] ++ disabledAtOnce ++ enabling (.client 0))
    (fun s : State lp64 => decide (s.nextQueue = 2 ∧ s.evtQueue = some 1 ∧ s.stateWLock = none)) (by decide +kernel)
  obtain ⟨hnext, hcur, hw⟩ := of_decide_eq_true hs
  obtain ⟨hfreed, hended⟩ := (queues_accounted hr).gone 0 (by omega) (by simp [hcur])
  have hset := (stateLock_reach hr).settled hw
  exact ⟨s, hnext, hcur, ((queues_accounted hr).settled hset 1 hcur).2, hfreed, hended⟩

/-! ### Steps without a queue -/

/-- The entry is about an event: it was accepted, taken, looked at, handed to a callback, or dispatched. -/
def Obs.ofEvent : Obs abi → Bool
  | .reged _ | .ret _ _ => false
  | _ => true

/-- What has happened to events. -/
def eventsOf (log : List (Obs abi)) : List (Obs abi) := log.filter Obs.ofEvent

theorem eventsOf_append {log os : List (Obs abi)} (h : eventsOf os = []) : eventsOf (log ++ os) = eventsOf log := by
  unfold eventsOf at *
  rw [List.filter_append, h, List.append_nil]

/-- The step is the one with which enabling begins: it locks the state of a manager that is ready. -/
def State.enables (s : State abi) (x : Thread × Act abi) : Prop :=
  s.manger.state = .ready ∧ s.calls x.1 = some (.enableEvtManger .lock) ∧ ∃ env, x.2 = .run env

/-- There is no queue: no processor is alive, and no callback runs. -/
theorem LiveInv.not_alive (hL : LiveInv s) (hq : s.evtQueue = none) (q : ℕ) : ¬ (s.procer q).alive := by
  intro ha
  have hcur := (hL.live q ha).1
  simp [hq] at hcur

/-- **Without a queue nothing happens to events**, and there is no queue until the manager is enabled. -/
theorem stopped_trans (hL : LiveInv s) (hX : StateLock s) (hF : FreedInv s) (hq : s.evtQueue = none)
    (hno : ¬ s.enables (t, a)) (h : Trans s t a s') : s'.evtQueue = none ∧ eventsOf s'.log = eventsOf s.log := by
  have hdead := hL.not_alive hq
  have hrest : ∀ {q}, s.procer q = .top ∨ s.procer q = .woken ∨ s.procer q = .waiting → False := by
    intro q hp
    refine hdead q ?_
    rcases hp with hp | hp | hp <;> simp [hp, ProcerPc.alive]
  have hdispatch : ∀ {q slot k pc}, s.procer q = .dispatch slot k pc → False := fun {q _ _ _} hp =>
    hdead q (by simp [hp, ProcerPc.alive])
  cases h with
  | call | halt => exact ⟨hq, rfl⟩
  | table ha hc htab =>
    refine ⟨(htab.ordinary hL hX hc).queue.trans hq, eventsOf_append ?_⟩
    cases htab with
    | @reg args r id m hm => cases id <;> rfl
    | _ => rfl
  | life ha hc hl =>
    have hP := hL.phase t _ hc
    cases hl with
    | enable hw hs => exact absurd ⟨hs, hc, _, ha⟩ hno
    | disable hw hs hcur => simp [hq] at hcur
    | disabled => exact ⟨hq, eventsOf_append rfl⟩
    | enabled =>
      obtain ⟨-, q, hcur, -⟩ := hP
      simp [hq] at hcur
    | initMutex | initCond | create | destroyMutex | destroyCond | free | clear => exact absurd (hq.symm.trans hP.2.1) (by simp)
  | @cancelJoin q p ha ht hc =>
    subst ht
    have hcur : s.evtQueue = some q := (hL.ofCb (by simp [hc])).1
    simp [hq] at hcur
  | @post env id arg q d place ha hc hl =>
    -- the queue in hand was freed, so no event goes into it
    have hf := (hF q (hL.locking t id arg q hc).1 (by simp [hq])).1
    simp [hl] at hf
  | signal =>
    refine ⟨by simpa [State.evtQueue] using hq, ?_⟩
    show eventsOf ((s.condSignal _).log ++ _) = _
    rw [State.condSignal_log]
    exact eventsOf_append rfl
  | wait ht hc hp | take ht hc hp => exact (hrest (hp.imp_right .inl)).elim
  | wake ht hc hp => exact (hrest (.inr (.inr hp))).elim
  | cancelWait ha ht hc hp => exact (hrest (hp.elim (fun h => .inr (.inr h)) fun h => .inr (.inl h))).elim
  | noTable ht hc hp | rdlock ht hc hp | endDispatch ht hc hp | move ht hc hp | compare ht hc hp
  | callSuber ht hc hp | cbRead ht hc hp | cancelCb ha ht hc hp => exact (hdispatch hp).elim

/-! ### The barrier -/

/-- The call returns only when there is no queue. -/
theorem evtQueue_of_disabled (hr : Reach ok clients s) (hn : next s (t, a) = some s') {pc : DisablePc}
    {r : Option TosResult} (hret : Returns s s' t (.disableEvtManger pc) r) : s'.evtQueue = none := by
  have hL := liveInv_reach hr
  have hX := stateLock_reach hr
  have hcall := hret.call
  have hdone := hret.done
  cases (next_trans hn).2 with
  | table ha hc htab =>
    obtain rfl := Option.some.inj (hcall.symm.trans hc)
    refine (htab.ordinary hL hX hc).queue.trans ?_
    cases htab with
    | disableNot hw hs =>
      by_contra hne
      exact hs ((hL.running (hX.settled hw)).mp hne)
    | disableNone hw hs hq => exact hq
  | life ha hc hl =>
    obtain rfl := Option.some.inj (hcall.symm.trans hc)
    have hP := hL.phase t _ hc
    cases hl with
    | disabled => exact hP.2.1
    | disable | destroyMutex | destroyCond | free | clear => simp at hdone
  | cancelJoin =>
    obtain ⟨os, hlog⟩ := hret.result
    have hlen := congrArg List.length hlog
    simp at hlen
  | call ha hc => simp [hcall] at hc
  | post ha hc | signal ha hc => simp [hcall] at hc
  | wait ht hc | take ht hc | wake ht hc | cancelWait ha ht hc | noTable ht hc | rdlock ht hc | endDispatch ht hc
  | move ht hc | compare ht hc | callSuber ht hc | cbRead ht hc | cancelCb ha ht hc => simp [hcall] at hc
  | halt => simp [hcall] at hdone

/-- While this holds nothing has happened to events since `s₀`, and no callback runs. -/
structure StoppedSince (s₀ s : State abi) : Prop where
  evtQueue : s.evtQueue = none
  events : eventsOf s.log = eventsOf s₀.log
  dead : ∀ q, ¬ (s.procer q).alive

theorem stopped_run (hr : Reach ok clients s) (hq : s.evtQueue = none)
    (hrun : Runs.ReachUnder next (fun s x => ¬ s.enables x) s s') : StoppedSince s s' := by
  have hreach : Reach (fun _ _ => True) clients s := hr.mono fun _ _ _ => trivial
  have hinv : Reach (fun _ _ => True) clients s' ∧ s'.evtQueue = none ∧ eventsOf s'.log = eventsOf s.log := by
    refine hrun.invariant (P := fun u => Reach (fun _ _ => True) clients u ∧ u.evtQueue = none ∧
      eventsOf u.log = eventsOf s.log) ⟨hreach, hq, rfl⟩ fun u u' x _ hP hok hn => ?_
    obtain ⟨hu, hqu, hlog⟩ := hP
    obtain ⟨hq', hlog'⟩ := stopped_trans (liveInv_reach hu) (stateLock_reach hu) (freedInv_reach hu) hqu hok
      (next_trans hn).2
    exact ⟨hu.tail x trivial hn, hq', hlog'.trans hlog⟩
  exact ⟨hinv.2.1, hinv.2.2, (liveInv_reach hinv.1).not_alive hinv.2.1⟩

/-- **The return of `PLT_EVT_disableEvtManger` is a barrier.**  Whoever else is in which call, from then on no processor
is alive and no callback runs, and no event is accepted, taken, looked at, handed to a callback or dispatched, until a
call that enables the manager has locked its state.  A post that read the pointer to the queue before is no exception: it
finds the queue freed, where the process ends by the convention of the model. -/
theorem disable_barrier (hr : Reach ok clients s) (hn : next s (t, a) = some s') {pc : DisablePc}
    {r : Option TosResult} (hret : Returns s s' t (.disableEvtManger pc) r)
    (hrun : Runs.ReachUnder next (fun s x => ¬ s.enables x) s' s'') : StoppedSince s' s'' := by
  have hr' : Reach (fun _ _ => True) clients s' := (hr.mono fun _ _ _ => trivial).tail (t, a) trivial hn
  exact stopped_run hr' (evtQueue_of_disabled hr hn hret) hrun

/-- A processor is stopped in the callback for the first of two events.  The second one stays where it is, also when the
client goes on to post another. -/
theorem disable_barrier_queued : ∃ s' s'' : State lp64, (s'.accepted 0).length = 2 ∧ (s'.taken 0).length = 1 ∧
    next s' (.client 0, .call (.postEvtSRT 0 (.own (defineEvtDesc lp64 evtIDTestKeepAlive)))) = some s'' ∧
    StoppedSince s' s'' := by
  obtain ⟨s, hr, hs⟩ := reach_of_run (fun _ _ => True) 1
    (startedDefault ++ postedKeepAlive ++ List.replicate 6 (.procer 0, .go) ++ postedKeepAlive ++ disabledAtOnce.take 7)
    (stopsAndThen fun s => decide ((s.accepted 0).length = 2 ∧ (s.taken 0).length = 1) &&
      (next s (.client 0, .call (.postEvtSRT 0 (.own (defineEvtDesc lp64 evtIDTestKeepAlive))))).isSome)
    (by decide +kernel)
  obtain ⟨s', hn, hret, hp⟩ := stopsAndThen_spec hs
  simp only [Bool.and_eq_true, decide_eq_true_eq] at hp
  obtain ⟨⟨hacc, htaken⟩, hsome⟩ := hp
  obtain ⟨s'', hcall⟩ := Option.isSome_iff_exists.mp hsome
  have hno : ¬ s'.enables (.client 0, .call (.postEvtSRT 0 (.own (defineEvtDesc lp64 evtIDTestKeepAlive)))) := by
    rintro ⟨-, -, env, ha⟩
    simp at ha
  exact ⟨s', s'', hacc, htaken, hcall, disable_barrier hr hn hret (Runs.ReachUnder.refl.tail _ hno hcall)⟩

end PlatIF.Evt
