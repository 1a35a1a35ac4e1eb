import PlatIF.Evt.Live

/-!
# The documented call flow

`CallFlow` is the state machine that the interface documents: which call is accepted in which state, where it takes
the manager, and what it may change.  In sequential runs, every call is compared with it from its entry to its return.

* `Call.progress` — how far a call in progress has taken the manager;
* `call_flow_iff` — exactly the calls that the code does not guard depart from the call flow;
* `subEvts_while_running` — one of them.
-/

namespace PlatIF.Evt

variable {abi : Abi} {s s' : State abi} {t u : Thread} {a : Act abi} {env : Env} {clients : ℕ}

/-- Every request for memory is granted. -/
def Env.granted (env : Env) : Prop := ∀ i, env.alloc i = true

/-- The documented call flow: a call made with the manager `m` returns `r` and leaves the manager `m'`. -/
def CallFlow (granted : Prop) (m : Manger abi) (api : Api abi) (r : Option TosResult) (m' : Manger abi) : Prop :=
  match api with
  | .initEvtManger _ =>
    if m.state = .uninited then
      (r = some .success ∧ m'.state = .ready ∨ r = some .notEnoughMemory ∧ m'.state = .uninited) ∧
        (granted → r = some .success)
    else r = some .badState ∧ m' = m
  | .regOper _ =>
    if m.state = .ready then r ≠ some .badState ∧ m' = { m with regedOperObjs := m'.regedOperObjs }
    else r = some .badState ∧ m' = m
  | .subEvts _ _ _ =>
    if m.state = .ready then r ≠ some .badState ∧ m' = { m with subTable := m'.subTable }
    else r = some .badState ∧ m' = m
  | .pubEvts _ _ =>
    if m.state = .ready then r ≠ some .badState ∧ m' = { m with pubTable := m'.pubTable }
    else r = some .badState ∧ m' = m
  | .enableEvtManger =>
    if m.state = .ready then
      (r = some .success ∧ m' = { m with state := .running, evtQueueProcer := m'.evtQueueProcer } ∨
          r ≠ some .success ∧ r ≠ some .badState ∧ m' = m) ∧
        (granted → m.evtQueueProcer ≠ none → r = some .success)
    else r = some .badState ∧ m' = m
  | .postEvtSRT _ _ => m' = m
  | .disableEvtManger =>
    if m.state = .running then m' = { m with state := .ready, evtQueueProcer := m'.evtQueueProcer } else m' = m
  | .unsubEvts _ => m' = { m with subTable := m'.subTable }
  | .unpubEvts _ => m' = { m with pubTable := m'.pubTable, freedRows := m'.freedRows }
  | .unregOper _ => m' = { m with regedOperObjs := m'.regedOperObjs }
  | .deinitEvtManger => if m.state = .ready then m'.state = .uninited else m' = m

/-- The code neither checks the state for this call nor acts on it. -/
def Api.unguarded (api : Api abi) (st : EvtMangerState) : Bool :=
  match api with
  | .subEvts _ _ _ | .pubEvts _ _ => st != .ready
  | .deinitEvtManger => st == .ready
  | _ => false

/-! ### Sequential runs -/

/-- A call starts only when no other call is in progress. -/
def State.sequential (s : State abi) (x : Thread × Act abi) : Bool :=
  match x.2 with
  | .call _ => s.threads.all fun t => (s.calls t).isNone
  | _ => true

/-- The call, without its program point. -/
def Call.api : Call abi → Api abi
  | .initEvtManger args => .initEvtManger args
  | .deinitEvtManger => .deinitEvtManger
  | .enableEvtManger _ => .enableEvtManger
  | .disableEvtManger _ => .disableEvtManger
  | .regOper args _ => .regOper args
  | .unregOper id => .unregOper id
  | .pubEvts id ids _ => .pubEvts id ids
  | .unpubEvts id => .unpubEvts id
  | .subEvts id ids args _ => .subEvts id ids args
  | .unsubEvts id => .unsubEvts id
  | .postEvtSRT id arg _ => .postEvtSRT id arg

/-- Two changes of the publication table. -/
theorem Manger.pubTable_only_trans {m₀ m₁ m₂ : Manger abi} (h₁ : m₁ = { m₀ with pubTable := m₁.pubTable })
    (h₂ : m₂ = { m₁ with pubTable := m₂.pubTable }) : m₂ = { m₀ with pubTable := m₂.pubTable } := by
  cases m₀
  cases m₁
  cases m₂
  simp_all

/-- Two changes of the table of queues. -/
theorem Manger.evtQueueProcer_only_trans {m₀ m₁ m₂ : Manger abi}
    (h₁ : m₁ = { m₀ with evtQueueProcer := m₁.evtQueueProcer })
    (h₂ : m₂ = { m₁ with evtQueueProcer := m₂.evtQueueProcer }) :
    m₂ = { m₀ with evtQueueProcer := m₂.evtQueueProcer } := by
  cases m₀
  cases m₁
  cases m₂
  simp_all

/-- How far a call made with the manager `m` has taken it. -/
def Call.progress (c : Call abi) (m m' : Manger abi) : Prop :=
  match c with
  | .pubEvts _ _ (.fill _ _ _) => m' = { m with pubTable := m'.pubTable }
  | .regOper _ true => m' = m ∧ m.state = .ready
  | .enableEvtManger .lock | .disableEvtManger .lock => m' = m
  | .enableEvtManger _ => m.state = .ready ∧ m' = { m with evtQueueProcer := m'.evtQueueProcer }
  | .disableEvtManger _ => m.state = .running ∧ m' = { m with evtQueueProcer := m'.evtQueueProcer }
  | _ => m' = m

theorem Api.toCall_progress (api : Api abi) (m : Manger abi) : api.toCall.progress m m := by
  cases api <;> rfl

theorem TableStep.progress {c c' : Call abi} {m m₀ : Manger abi} {n : ℕ} {os : List (Obs abi)}
    (h : TableStep s t env c m n (some c') os) (hp : c.progress m₀ s.manger) : c'.progress m₀ m := by
  cases h with
  | regCheck hw hs => exact ⟨hp, (congrArg Manger.state hp).symm.trans hs⟩
  | pubStore =>
    obtain rfl : s.manger = m₀ := hp
    exact Manger.storePubRow_only ..
  | pubFill =>
    have hp : s.manger = { m₀ with pubTable := s.manger.pubTable } := hp
    exact Manger.pubTable_only_trans hp (Manger.fillPubRow_only ..)
  | _ => exact hp

/-- The steps of enabling and disabling take the manager on until the last one sets its state. -/
theorem LifeStep.progress {c c' : Call abi} {m₀ : Manger abi} (h : LifeStep s t c s')
    (hc' : s'.calls t = some c') (hp : c.progress m₀ s.manger) : c'.progress m₀ s'.manger := by
  cases h with
  | enable hw hs =>
    simp only [State.setCall, Function.update_self, Option.some.injEq] at hc'
    subst hc'
    obtain rfl : s.manger = m₀ := hp
    exact ⟨hs, rfl⟩
  | disable hw hs =>
    simp only [State.setCall, Function.update_self, Option.some.injEq] at hc'
    subst hc'
    obtain rfl : s.manger = m₀ := hp
    exact ⟨hs, rfl⟩
  | initMutex | initCond | create | destroyMutex | destroyCond | free =>
    simp only [State.setCall, Function.update_self, Option.some.injEq] at hc'
    subst hc'
    exact hp
  | clear =>
    simp only [State.setCall, Function.update_self, Option.some.injEq] at hc'
    subst hc'
    exact ⟨hp.1, Manger.evtQueueProcer_only_trans hp.2 rfl⟩
  | enabled | disabled => simp at hc'

theorem LifeStep.calls_eq {c : Call abi} (h : LifeStep s t c s') :
    s'.calls = Function.update s.calls t (s'.calls t) := by
  cases h <;> simp

/-- At most one call is in progress, and it has taken the manager no further than its program point says. -/
structure SeqInv (s : State abi) : Prop where
  single : ∀ t u, s.calls t ≠ none → s.calls u ≠ none → t = u
  progress : ∀ t c, s.calls t = some c → c.progress (s.entry t) s.manger

theorem seqInv_of_none (h : ∀ t, s.calls t = none) : SeqInv s :=
  ⟨fun t _ ht => absurd (h t) ht, fun t c hc => by simp [h t] at hc⟩

/-- After a step of the one call. -/
theorem SeqInv.update (hI : SeqInv s) (hc : s.calls t ≠ none) (c' : Option (Call abi))
    (hcalls : s'.calls = Function.update s.calls t c')
    (hp : ∀ c, c' = some c → c.progress (s'.entry t) s'.manger) : SeqInv s' := by
  have hne : ∀ u, s'.calls u ≠ none → u = t := by
    intro u hu
    by_contra hut
    rw [hcalls, Function.update_of_ne hut] at hu
    exact hut (hI.single u t hu hc)
  refine ⟨fun u v hu hv => (hne u hu).trans (hne v hv).symm, fun u c hu => ?_⟩
  obtain rfl := hne u (by rw [hu]; simp)
  rw [hcalls, Function.update_self] at hu
  exact hp c hu

theorem seqInv_trans (hI : SeqInv s) (hidle : ∀ api, a = .call api → ∀ t, s.calls t = none)
    (h : Trans s t a s') : SeqInv s' := by
  cases h with
  | @call api ha hc hu =>
    have hnone := hidle api ha
    refine ⟨fun u v hu hv => ?_, fun u c hc => ?_⟩
    · have hut : ∀ u, Function.update s.calls t (some api.toCall) u ≠ none → u = t := by
        intro u hu
        by_contra hut
        simp [Function.update_of_ne hut, hnone u] at hu
      exact (hut u hu).trans (hut v hv).symm
    · by_cases hut : u = t
      · subst hut
        simp only [State.setCall, Function.update_self, Option.some.injEq] at hc
        subst hc
        simpa using api.toCall_progress s.manger
      · simp [Function.update_of_ne hut, hnone u] at hc
  | table ha hc htab =>
    refine hI.update (t := t) (by simp [hc]) _ rfl fun c hc' => ?_
    subst hc'
    exact htab.progress (hI.progress t _ hc)
  | life ha hc hl =>
    refine hI.update (t := t) (by simp [hc]) _ hl.calls_eq fun c hc' => ?_
    rw [hl.entry_eq]
    exact hl.progress hc' (hI.progress t _ hc)
  | @post env id arg q d place ha hc =>
    refine hI.update (t := t) (by simp [hc]) (some (.postEvtSRT id arg (.signal q))) (by simp) fun c hc' => ?_
    obtain rfl := Option.some.inj hc'
    simpa [Call.progress] using hI.progress t _ hc
  | cancelJoin ha ht hc | signal ha hc =>
    exact hI.update (t := t) (by simp [hc]) none (by simp)
      fun c hc' => absurd hc'.symm (Option.some_ne_none c)
  | _ => exact ⟨hI.single, hI.progress⟩

theorem seqInv_reach (h : Reach (fun s x => s.sequential x = true) clients s) : SeqInv s := by
  refine h.induction (P := SeqInv) (seqInv_of_none fun _ => rfl) fun s s' t a hr hI hok _ h =>
    seqInv_trans hI (fun api ha u => ?_) h
  subst ha
  by_contra hu
  have hnone := List.all_eq_true.mp hok u (mem_threads hr hu)
  exact hu (Option.isNone_iff_eq_none.mp hnone)

/-! ### What a call does when it returns -/

theorem Manger.initTables_granted (m : Manger abi) (args : EvtMangerModArgs) (hg : env.granted) :
    (m.initTables args env).1 = .success := by
  simp [Manger.initTables, hg 0, hg 1, hg 2, hg 3]

theorem initEvtManger_callFlow (m : Manger abi) (args : Option EvtMangerModArgs) :
    CallFlow env.granted m (.initEvtManger args) (some (m.initEvtManger args env).1) (m.initEvtManger args env).2 := by
  have hi := m.initEvtManger_step args env
  generalize m.initEvtManger args env = x at hi
  obtain ⟨r, m'⟩ := x
  simp only at hi
  cases hi with
  | badState hs => simp [CallFlow, hs]
  | null hs ha => simp [CallFlow, hs]
  | done hs ha hm => simp [CallFlow, hs]
  | failed hs ha hm hr =>
    obtain ⟨rfl, hst, -⟩ := m.initTables_failure hm hr
    have hnot : ¬ env.granted := fun hg => hr ((congrArg Prod.fst hm).symm.trans (m.initTables_granted _ hg))
    simp [CallFlow, hs, hst, hnot]

theorem Manger.doRegOper_ne_badState (m : Manger abi) (args : EvtOperArgs) (env : Env) :
    (m.doRegOper args env).1 ≠ .badState := by
  unfold Manger.doRegOper
  split
  · simp
  · split
    · simp
    · split <;> simp

theorem Manger.doSubEvts_ne_badState (m : Manger abi) (id : EvtOperID abi) (ids : List EvtID) (args : EvtSubArgs) :
    (m.doSubEvts id ids args env).1 ≠ .badState := by
  unfold Manger.doSubEvts
  split
  · simp
  · split
    · simp
    · split
      · simp
      · split <;> simp

/-- A `subEvts` or `pubEvts` that returns something else than `TOS_RESULT_BAD_STATE` and leaves the other tables alone
follows the call flow in the ready state only. -/
theorem callFlow_sub_iff {granted : Prop} {m m' : Manger abi} {r : TosResult} (hr : r ≠ .badState) (id : EvtOperID abi)
    (ids : List EvtID) (args : EvtSubArgs) (hm : m' = { m with subTable := m'.subTable }) :
    CallFlow granted m (.subEvts id ids args) (some r) m' ↔ m.state = .ready := by
  simp only [CallFlow]
  split
  · rename_i hs
    exact ⟨fun _ => hs, fun _ => ⟨by simpa using hr, hm⟩⟩
  · rename_i hs
    exact ⟨fun h => absurd (Option.some.inj h.1) hr, fun h => absurd h hs⟩

theorem callFlow_pub_iff {granted : Prop} {m m' : Manger abi} {r : TosResult} (hr : r ≠ .badState) (id : EvtOperID abi)
    (ids : List EvtID) (hm : m' = { m with pubTable := m'.pubTable }) :
    CallFlow granted m (.pubEvts id ids) (some r) m' ↔ m.state = .ready := by
  simp only [CallFlow]
  split
  · rename_i hs
    exact ⟨fun _ => hs, fun _ => ⟨by simpa using hr, hm⟩⟩
  · rename_i hs
    exact ⟨fun h => absurd (Option.some.inj h.1) hr, fun h => absurd h hs⟩

/-- The entry of the table of queues is free while the manager is ready and its state is not locked. -/
theorem LiveInv.firstFree_ready (hL : LiveInv s) (hset : s.Settled) (hs : s.manger.state = .ready) {tab : Table ℕ}
    (hq : s.manger.evtQueueProcer = some tab) : tab.firstFree s.manger.mayEvtQueueNumMax.toNat ≠ none := by
  have hnone : s.evtQueue = none := by
    by_contra hne
    simp [(hL.running hset).mp hne] at hs
  have h0 : tab.entry 0 = none := by simpa [State.evtQueue, hq] using hnone
  simp [Table.firstFree, hL.life.queueNum, h0]

/-- A step on the tables that returns. -/
theorem TableStep.callFlow_iff {c : Call abi} {m m₀ : Manger abi} {n : ℕ} {os : List (Obs abi)} {r : Option TosResult}
    (h : TableStep s t env c m n none os) (hr : os.getLast? = some (.ret t r)) (hL : LiveInv s) (hX : StateLock s)
    (hp : c.progress m₀ s.manger) :
    CallFlow env.granted m₀ c.api r m ↔ c.api.unguarded m₀.state = false := by
  cases h with
  | deinit =>
    obtain rfl : s.manger = m₀ := hp
    by_cases hs : s.manger.state = .ready <;> simp [Call.api, CallFlow, Api.unguarded, hs]
  | init hw =>
    obtain rfl : s.manger = m₀ := hp
    simp only [List.getLast?_singleton, Option.some.injEq, Obs.ret.injEq, true_and] at hr
    subst hr
    simpa [Call.api, Api.unguarded] using initEvtManger_callFlow s.manger _
  | enableBadState hw hs =>
    obtain rfl : s.manger = m₀ := hp
    simp_all [Call.api, CallFlow, Api.unguarded]
  | enableBug hw hs hq =>
    obtain rfl : s.manger = m₀ := hp
    simp only [List.getLast?_singleton, Option.some.injEq, Obs.ret.injEq, true_and] at hr
    subst hr
    simp [Call.api, CallFlow, Api.unguarded, hs, hq]
  | enableTooMany hw hs hq hf =>
    obtain rfl : s.manger = m₀ := hp
    exact absurd hf (hL.firstFree_ready (hX.settled hw) hs hq)
  | enableNoMemory hw hs ha =>
    obtain rfl : s.manger = m₀ := hp
    have hnot : ¬ env.granted := fun hg => by simp [hg 0] at ha
    simp only [List.getLast?_singleton, Option.some.injEq, Obs.ret.injEq, true_and] at hr
    subst hr
    simp [Call.api, CallFlow, Api.unguarded, hs, hnot]
  | disableNot hw hs =>
    obtain rfl : s.manger = m₀ := hp
    simp [Call.api, CallFlow, Api.unguarded, hs]
  | disableNone hw hs hq => exact absurd hq ((hL.running (hX.settled hw)).mpr hs)
  | regBadState hw hs =>
    obtain rfl : s.manger = m₀ := hp
    simp_all [Call.api, CallFlow, Api.unguarded]
  | @reg args _ id _ hm =>
    obtain ⟨rfl, hs⟩ : s.manger = m₀ ∧ m₀.state = .ready := hp
    have honly := s.manger.doRegOper_only args env
    have hne := s.manger.doRegOper_ne_badState args env
    rw [hm] at honly hne
    simp only [List.getLast?_append, List.getLast?_singleton, Option.some_or, Option.some.injEq, Obs.ret.injEq,
      true_and] at hr
    subst hr
    simp only [Call.api, CallFlow, Api.unguarded]
    rw [if_pos hs]
    exact iff_of_true ⟨by simpa using hne, honly⟩ trivial
  | unreg =>
    obtain rfl : s.manger = m₀ := hp
    simpa [Call.api, CallFlow, Api.unguarded] using s.manger.unregOper_only _
  | unpub =>
    obtain rfl : s.manger = m₀ := hp
    simpa [Call.api, CallFlow, Api.unguarded] using s.manger.unpubEvts_only _
  | unsub =>
    obtain rfl : s.manger = m₀ := hp
    simpa [Call.api, CallFlow, Api.unguarded] using s.manger.unsubEvts_only _
  | pubNotReged | pubBug | pubTooMany | pubNoMemory =>
    obtain rfl : s.manger = m₀ := hp
    simp only [List.getLast?_singleton, Option.some.injEq, Obs.ret.injEq, true_and] at hr
    subst hr
    simpa [Call.api, Api.unguarded] using callFlow_pub_iff (by simp) _ _ rfl
  | @pubDone id ids row pRow pc =>
    have hp : s.manger = { m₀ with pubTable := s.manger.pubTable } := hp
    simp only [List.getLast?_singleton, Option.some.injEq, Obs.ret.injEq, true_and] at hr
    subst hr
    have honly := Manger.pubTable_only_trans hp (s.manger.fillPubRow_only row pRow id ids pc)
    simpa [Call.api, Api.unguarded] using callFlow_pub_iff (by simp) _ _ honly
  | subNotReged =>
    obtain rfl : s.manger = m₀ := hp
    simp only [List.getLast?_singleton, Option.some.injEq, Obs.ret.injEq, true_and] at hr
    subst hr
    simpa [Call.api, Api.unguarded] using callFlow_sub_iff (by simp) _ _ _ rfl
  | sub =>
    obtain rfl : s.manger = m₀ := hp
    simp only [List.getLast?_singleton, Option.some.injEq, Obs.ret.injEq, true_and] at hr
    subst hr
    simpa [Call.api, Api.unguarded] using
      callFlow_sub_iff (s.manger.doSubEvts_ne_badState _ _ _) _ _ _ (s.manger.doSubEvts_only _ _ _ _)
  | postNotReged | postFull =>
    obtain rfl : s.manger = m₀ := hp
    simp [Call.api, CallFlow, Api.unguarded]

/-- **The documented call flow.**  In a sequential run, a call follows it from its entry to its return unless it is one
that the code does not guard. -/
theorem call_flow_iff {c : Call abi} {r : Option TosResult}
    (hr : Reach (fun s x => s.sequential x = true) clients s) (hn : next s (t, .run env) = some s')
    (hret : Returns s s' t c r) :
    CallFlow env.granted (s.entry t) c.api r s'.manger ↔ c.api.unguarded (s.entry t).state = false := by
  have hL := liveInv_reach hr
  have hp := (seqInv_reach hr).progress t c hret.call
  obtain ⟨os, hlog⟩ := hret.result
  have hcall := hret.call
  have hdone := hret.done
  -- the last entry that the step adds to the log is the return
  have hlast : ∀ os', s'.log = s.log ++ os' → os'.getLast? = some (.ret t r) := by
    intro os' h
    rw [h, List.append_assoc] at hlog
    rw [List.append_cancel_left hlog, List.getLast?_append]
    rfl
  cases (next_trans hn).2 with
  | call ha hc => simp [hcall] at hc
  | @table env' c' m n c'' os' ha hc htab =>
    obtain rfl := Act.run.inj ha
    obtain rfl := Option.some.inj (hc.symm.trans hcall)
    simp only [State.tableStep, Function.update_self] at hdone
    subst hdone
    exact htab.callFlow_iff (hlast _ rfl) hL (stateLock_reach hr) hp
  | life ha hc hl =>
    obtain rfl := Option.some.inj (hc.symm.trans hcall)
    cases hl with
    | enabled =>
      obtain ⟨hs, hm⟩ : (s.entry t).state = .ready ∧
        s.manger = { s.entry t with evtQueueProcer := s.manger.evtQueueProcer } := hp
      have hres := hlast [.ret t (some .success)] rfl
      simp only [List.getLast?_singleton, Option.some.injEq, Obs.ret.injEq, true_and] at hres
      subst hres
      have hm' : ((s.unlockState .running).ret t (some .success)).manger = { s.entry t with
          state := .running, evtQueueProcer := s.manger.evtQueueProcer } := by
        simp only [State.unlockState, State.ret, State.setCall, State.obs]
        rw [hm]
      rw [hm']
      simp [Call.api, CallFlow, Api.unguarded, hs]
    | disabled =>
      obtain ⟨hs, hm⟩ : (s.entry t).state = .running ∧
        s.manger = { s.entry t with evtQueueProcer := s.manger.evtQueueProcer } := hp
      have hm' : ((s.unlockState .ready).ret t none).manger = { s.entry t with
          state := .ready, evtQueueProcer := s.manger.evtQueueProcer } := by
        simp only [State.unlockState, State.ret, State.setCall, State.obs]
        rw [hm]
      rw [hm']
      simp [Call.api, CallFlow, Api.unguarded, hs]
    | enable | initMutex | initCond | create | disable | destroyMutex | destroyCond | free | clear => simp at hdone
  | signal ha hc =>
    obtain rfl := Option.some.inj (hc.symm.trans hcall)
    have hm : s.manger = s.entry t := hp
    simp [← hm, Call.api, CallFlow, Api.unguarded]
  | cancelJoin ha => simp at ha
  | post => simp at hdone
  | wait ht hc | take ht hc | wake ht hc | cancelWait ha ht hc | noTable ht hc | rdlock ht hc | endDispatch ht hc
  | move ht hc | compare ht hc | callSuber ht hc | cbRead ht hc | cancelCb ha ht hc => simp [hcall] at hc
  | halt => simp [hcall] at hdone

/-- A sequence of calls of one client, each with the steps it takes. -/
def runCalls (calls : List (Api lp64 × ℕ)) : List (Thread × Act lp64) :=
  calls.flatMap fun (api, n) => (.client 0, .call api) :: List.replicate n (.client 0, .go)

/-- The call is `subEvts` of an operator that was found registered. -/
def Call.subsChecked : Call abi → Bool
  | .subEvts _ _ _ true => true
  | _ => false

theorem Call.subsChecked_iff {c : Call abi} : c.subsChecked = true ↔ ∃ id ids args, c = .subEvts id ids args true := by
  unfold Call.subsChecked
  split <;> simp_all

/-- `subEvts` while the manager runs returns `TOS_RESULT_SUCCESS`. -/
theorem subEvts_while_running :
    ∃ (s s' : State lp64) (c : Call lp64) (r : Option TosResult),
      Reach (fun s x => s.sequential x = true) 1 s ∧ next s (.client 0, .go) = some s' ∧
        Returns s s' (.client 0) c r ∧ ¬ CallFlow True (s.entry (.client 0)) c.api r s'.manger := by
  obtain ⟨s, hr, hs⟩ := reach_of_run (fun s x => s.sequential x = true) 1
    (runCalls [(.initEvtManger (some ⟨0, 0, 0, 0⟩), 1), (.regOper ⟨0⟩, 2), (.enableEvtManger, 5),
      (.subEvts 0 [evtIDTestKeepAlive] ⟨1, 1⟩, 1)])
    (fun s => (s.calls (.client 0)).any fun c : Call lp64 => (next s (.client 0, .go)).any fun s' : State lp64 =>
      c.subsChecked && decide ((s.entry (.client 0)).state = .running) && (s'.calls (.client 0)).isNone &&
      decide (s'.log = s.log ++ [.ret (.client 0) (some .success)])) (by decide +kernel)
  simp only [Option.any_eq_true, Bool.and_eq_true, Call.subsChecked_iff, decide_eq_true_eq,
    Option.isNone_iff_eq_none] at hs
  obtain ⟨c, hc, s', hn, ⟨⟨⟨id, ids, args, rfl⟩, hrun⟩, hdone⟩, hlog⟩ := hs
  refine ⟨s, s', _, _, hr, hn, ⟨hc, hdone, [], by simpa using hlog⟩, fun hflow => ?_⟩
  simp [Call.api, CallFlow, hrun] at hflow

/-- `enableEvtManger` after `initEvtManger`. -/
theorem call_flow_iff_enable :
    ∃ (s s' : State lp64) (c : Call lp64), Returns s s' (.client 0) c (some .success) ∧
      CallFlow (Env.granted {}) (s.entry (.client 0)) c.api (some .success) s'.manger := by
  obtain ⟨s, hr, hs⟩ := reach_of_run (fun s x => s.sequential x = true) 1
    (runCalls [(.initEvtManger (some ⟨0, 0, 0, 0⟩), 1), (.enableEvtManger, 4)])
    (fun s => (s.calls (.client 0)).any fun c : Call lp64 => (next s (.client 0, .go)).any fun s' : State lp64 =>
      !c.api.unguarded (s.entry (.client 0)).state && (s'.calls (.client 0)).isNone &&
      decide (s'.log = s.log ++ [.ret (.client 0) (some .success)])) (by decide +kernel)
  simp only [Option.any_eq_true, Bool.and_eq_true, Bool.not_eq_true', decide_eq_true_eq,
    Option.isNone_iff_eq_none] at hs
  obtain ⟨c, hc, s', hn, ⟨hguard, hdone⟩, hlog⟩ := hs
  have hret : Returns s s' (.client 0) c (some .success) := ⟨hc, hdone, [], by simpa using hlog⟩
  exact ⟨s, s', c, hret, (call_flow_iff hr hn hret).mpr hguard⟩

end PlatIF.Evt
