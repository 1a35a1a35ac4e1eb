import PlatIF.Evt.StopBarrier
import PlatIF.Evt.WaitCycle
import PlatIF.Evt.WakeUp

/-!
# Runs with polite callbacks

A callback runs on the processor, with the subscription table locked.  A polite one posts, publishes and registers, and
leaves the subscriptions alone; and a processor is cancelled only where it has nothing to do.  In such runs the law of
`WaitCycle` and that of `Stop` hold together, and more:

* `politeInv_reach` — what callbacks have called;
* `cancelInv_reach` — whose processor is cancelled, and what a stopped one leaves behind.
-/

namespace PlatIF.Evt

variable {abi : Abi} {s s' : State abi} {t u : Thread} {a : Act abi} {env : Env} {clients q n : ℕ} {c c' : Call abi}
  {m : Manger abi} {os : List (Obs abi)}

/-! ### The condition -/

/-- The functions that a polite callback calls. -/
def Api.polite : Api abi → Bool
  | .postEvtSRT _ _ | .pubEvts _ _ | .regOper _ => true
  | _ => false

/-- The same, for calls in progress. -/
def Call.polite : Call abi → Bool
  | .postEvtSRT _ _ _ | .pubEvts _ _ _ | .regOper _ _ => true
  | _ => false

/-- Callbacks are polite. -/
def cbPolite (x : Thread × Act abi) : Bool :=
  match x with
  | (.procer _, .call api) => api.polite
  | _ => true

/-- Callbacks are polite, and do not wait for the state lock while their processor is joined; a processor is cancelled
while it waits for an event and there is none. -/
def State.polite (s : State abi) (x : Thread × Act abi) : Bool := cbPolite x && s.waitSafe x && s.stopsIdle x

theorem State.polite_iff {x : Thread × Act abi} :
    s.polite x = true ↔ cbPolite x = true ∧ s.waitSafe x = true ∧ s.stopsIdle x = true := by
  simp [State.polite, and_assoc]

theorem cbCalls_of_polite {x : Thread × Act abi} (h : cbPolite x = true) : cbCalls x = true := by
  obtain ⟨t, a⟩ := x
  cases t with
  | client n => rfl
  | procer q =>
    cases a with
    | call api =>
      have hapi : api.polite = true := h
      cases api <;> first | rfl | simp [Api.polite] at hapi
    | _ => rfl

theorem waitInv_of_polite (h : Reach (fun s x => s.polite x = true) clients s) : WaitInv s :=
  waitInv_reach (h.mono fun _ _ hx =>
    ⟨cbCalls_of_polite (State.polite_iff.mp hx).1, (State.polite_iff.mp hx).2.1⟩)

theorem stopInv_of_polite (h : Reach (fun s x => s.polite x = true) clients s) (q : ℕ) : StopInv s q :=
  stopInv_reach (h.mono fun _ _ hx => (State.polite_iff.mp hx).2.2)

/-! ### The calls of callbacks -/

/-- Callbacks have called nothing else. -/
def PoliteInv (s : State abi) : Prop := ∀ q c, s.calls (.procer q) = some c → c.polite = true

/-- The rest of a polite call is polite. -/
theorem TableStep.polite (h : TableStep s t env c m n (some c') os) (hc : c.polite = true) : c'.polite = true := by
  cases h <;> first | rfl | exact hc

/-- A polite callback neither enables nor disables. -/
theorem LifeStep.not_polite (h : LifeStep s t c s') : c.polite = false := by
  cases h <;> rfl

theorem politeInv_trans (hP : PoliteInv s) (hok : cbPolite (t, a) = true) (h : Trans s t a s') : PoliteInv s' := by
  intro q c hc
  by_cases ht : t = .procer q
  · subst ht
    cases h with
    | @call api ha hc' hu hr =>
      subst ha
      simp only [State.setCall, Function.update_self, Option.some.injEq] at hc
      subst hc
      have hapi : api.polite = true := hok
      cases api <;> first | rfl | simp [Api.polite] at hapi
    | table ha hc' htab =>
      simp only [State.tableStep, Function.update_self] at hc
      subst hc
      exact htab.polite (hP q _ hc')
    | life ha hc' hl =>
      have hpolite := hP q _ hc'
      simp [hl.not_polite] at hpolite
    | post =>
      simp only [State.obs, State.setCall, Function.update_self, Option.some.injEq] at hc
      subst hc
      rfl
    | cancelJoin | signal => simp at hc
    | _ => exact hP q c hc
  · rw [h.calls_ne (Ne.symm ht)] at hc
    exact hP q c hc

theorem politeInv_reach (h : Reach (fun s x => s.polite x = true) clients s) : PoliteInv s :=
  h.induction (P := PoliteInv) (fun _ _ hc => by simp [State.init] at hc) fun _ _ _ _ _ hP hok _ h =>
    politeInv_trans hP (State.polite_iff.mp hok).1 h

/-! ### Cancellation -/

/-- The queue that a call stops and has not freed yet. -/
def Call.frees : Call abi → Option ℕ
  | .disableEvtManger (.join q) | .disableEvtManger (.destroyCond q) | .disableEvtManger (.free q) => some q
  | _ => none

theorem Call.holdsState_of_frees (hf : c.frees = some q) : c.holdsState = true := by
  unfold Call.frees at hf
  split at hf
  · rfl
  · rfl
  · rfl
  · simp at hf

/-- It is the one in use. -/
theorem LiveInv.frees (hL : LiveInv s) (hc : s.calls t = some c) (hf : c.frees = some q) : s.evtQueue = some q := by
  have hP := hL.phase t c hc
  unfold Call.frees at hf
  split at hf
  · exact Option.some.inj hf ▸ hP.2.1
  · exact Option.some.inj hf ▸ hP.2.1
  · exact Option.some.inj hf ▸ hP.2.1
  · simp at hf

/-- A processor is cancelled by the call that joins it and then frees its queue, and ends only if it is. -/
structure CancelInv (s : State abi) : Prop where
  joined : ∀ q, s.cancelled q = true → (s.queues q).freed = true ∨ ∃ t c, s.calls t = some c ∧ c.frees = some q
  ended : ∀ q, s.procer q = .ended → s.cancelled q = true
  fresh : ∀ q, s.nextQueue ≤ q → s.cancelled q = false

/-- What a step does to cancellations. -/
structure CancelStep (s s' : State abi) : Prop where
  cancelled : ∀ q, s'.cancelled q = true → s.cancelled q = true ∨ ∃ t c, s'.calls t = some c ∧ c.frees = some q
  keeps : ∀ q, s.cancelled q = true → s'.cancelled q = true
  freeing : ∀ q t c, s.calls t = some c → c.frees = some q → (s'.queues q).freed = true ∨
    ∃ c', s'.calls t = some c' ∧ c'.frees = some q

/-- A step that leaves cancellations alone. -/
theorem CancelStep.of_calls (hx : s'.cancelled = s.cancelled)
    (hc : ∀ q t c, s.calls t = some c → c.frees = some q → ∃ c', s'.calls t = some c' ∧ c'.frees = some q) :
    CancelStep s s' where
  cancelled _ h := .inl (hx ▸ h)
  keeps _ h := hx ▸ h
  freeing q t c h hf := .inr (hc q t c h hf)

/-- The rest of a call: another one, or the same queue is still to be freed. -/
theorem freeing_update {x : Option (Call abi)}
    (hx : ∀ c q, s.calls t = some c → c.frees = some q → ∃ c', x = some c' ∧ c'.frees = some q) (q : ℕ) (u : Thread)
    (c : Call abi) (hu : s.calls u = some c) (hf : c.frees = some q) :
    ∃ c', Function.update s.calls t x u = some c' ∧ c'.frees = some q := by
  by_cases hut : u = t
  · subst hut
    rw [Function.update_self]
    exact hx c q hu hf
  · exact ⟨c, by rwa [Function.update_of_ne hut], hf⟩

/-- A call that frees nothing. -/
theorem not_freeing (hc : s.calls t = some c) (hno : c.frees = none) {x : Option (Call abi)} (d : Call abi) (q : ℕ)
    (hd : s.calls t = some d) (hf : d.frees = some q) : ∃ c', x = some c' ∧ c'.frees = some q := by
  obtain rfl := Option.some.inj (hc.symm.trans hd)
  simp [hno] at hf

theorem LifeStep.cancelStep (hc : s.calls t = some c) (h : LifeStep s t c s') : CancelStep s s' := by
  cases h with
  | @disable p =>
    refine ⟨fun q h => ?_, fun q h => ?_, fun q u d hu hf => .inr ?_⟩
    · by_cases hq : q = p
      · subst hq
        exact .inr ⟨t, _, Function.update_self .., rfl⟩
      · exact .inl (by simpa [Function.update_of_ne hq] using h)
    · by_cases hq : q = p
      · subst hq
        simp
      · simpa [Function.update_of_ne hq] using h
    · exact freeing_update (not_freeing hc rfl) q u d hu hf
  | destroyMutex | destroyCond =>
    refine .of_calls rfl (freeing_update fun d q hd hf => ?_)
    obtain rfl := Option.some.inj (hc.symm.trans hd)
    exact ⟨_, rfl, hf⟩
  | @free p =>
    refine ⟨fun q h => .inl h, fun q h => h, fun q u d hu hf => ?_⟩
    by_cases hut : u = t
    · subst hut
      obtain rfl := Option.some.inj (hc.symm.trans hu)
      obtain rfl : p = q := Option.some.inj hf
      exact .inl (by simp)
    · exact .inr ⟨d, by simpa [Function.update_of_ne hut] using hu, hf⟩
  | enable | initMutex | initCond | create | enabled | clear | disabled =>
    exact .of_calls rfl (freeing_update (not_freeing hc rfl))

theorem Trans.cancelStep (hP : PoliteInv s) (h : Trans s t a s') : CancelStep s s' := by
  cases h with
  | call ha hc =>
    exact .of_calls rfl (freeing_update fun d q hd => by simp [hc] at hd)
  | table ha hc htab => exact .of_calls rfl (freeing_update (not_freeing hc (by cases htab <;> rfl)))
  | life ha hc hl => exact hl.cancelStep hc
  | @cancelJoin p p' ha ht hc =>
    -- a polite callback joins nobody
    subst ht
    have hpolite := hP p _ hc
    simp [Call.polite] at hpolite
  | post ha hc =>
    refine .of_calls (by simp) ?_
    simpa using freeing_update (not_freeing hc rfl)
  | signal ha hc =>
    refine .of_calls (by simp) ?_
    simpa using freeing_update (not_freeing hc rfl)
  | _ => exact .of_calls rfl fun _ _ c h hf => ⟨c, h, hf⟩

/-- A processor ends by its cancellation. -/
theorem Trans.ended_next (h : Trans s t a s') (he : s'.procer q = .ended) :
    s.procer q = .ended ∨ s.cancelled q = true := by
  have hupd : ∀ {p : ℕ} {pc : ProcerPc}, (pc = .ended → s.cancelled p = true) → Function.update s.procer p pc q = .ended →
      s.procer q = .ended ∨ s.cancelled q = true := by
    intro p pc hpc hu
    by_cases hq : q = p
    · subst hq
      rw [Function.update_self] at hu
      exact .inr (hpc hu)
    · exact .inl (by rwa [Function.update_of_ne hq] at hu)
  cases h with
  | @signal env id arg p ha hc hl =>
    simp only [State.ret, State.setCall, State.obs, State.condSignal] at he
    split at he
    · exact hupd (by simp) he
    · exact .inl he
  | post => exact .inl (by simpa using he)
  | cancelJoin ha ht hc hx | cancelWait ha ht hc hp hx | cancelCb ha ht hc hp hx => exact hupd (fun _ => hx) he
  | call | table | cbRead | halt => exact .inl he
  | life ha hc hl =>
    rcases hl.procer_cases q with hsame | ⟨-, htop⟩
    · exact .inl (hsame.symm.trans he)
    · simp [htop] at he
  | wait | take | wake | noTable | rdlock | endDispatch | move | compare | callSuber =>
    exact hupd (by simp) he

/-- A queue of the past stays freed. -/
theorem Trans.freed_next (hL : LiveInv s) (hX : StateLock s) (h : Trans s t a s') (hlt : q < s.nextQueue)
    (hf : (s.queues q).freed = true) : (s'.queues q).freed = true := by
  rcases h.ordinary hL hX with ho | ⟨env, c, -, -, hl⟩
  · exact (ho.sameLife q).freed.trans hf
  · exact hl.freed hlt hf

theorem cancelInv_trans (hP : PoliteInv s) (hC : CancelInv s) (hL : LiveInv s) (hX : StateLock s) (hL' : LiveInv s')
    (h : Trans s t a s') : CancelInv s' := by
  have hstep := h.cancelStep hP
  constructor
  case joined =>
    intro q hx
    rcases hstep.cancelled q hx with hx | hx
    · have hlt : q < s.nextQueue := by
        by_contra hge
        simp [hC.fresh q (Nat.not_lt.mp hge)] at hx
      rcases hC.joined q hx with hf | ⟨u, c, hu, hf⟩
      · exact .inl (h.freed_next hL hX hlt hf)
      · exact (hstep.freeing q u c hu hf).imp_right fun hu => ⟨u, hu⟩
    · exact .inr hx
  case ended =>
    intro q he
    rcases h.ended_next he with he | hx
    · exact hstep.keeps q (hC.ended q he)
    · exact hstep.keeps q hx
  case fresh =>
    intro q hge
    by_contra hx
    rcases hstep.cancelled q (by simpa using hx) with hx | ⟨u, c, hu, hf⟩
    · simp [hC.fresh q (h.nextQueue_le.trans hge)] at hx
    · have hlt := hL'.current q (hL'.frees hu hf)
      omega

theorem cancelInv_reach (h : Reach (fun s x => s.polite x = true) clients s) : CancelInv s := by
  refine Runs.ReachUnder.invariant (P := CancelInv) ?_ (fun s s' x hr hC hok hn => ?_) h
  · exact ⟨fun q hx => by simp [State.init] at hx, fun q he => by simp [State.init] at he, fun q _ => rfl⟩
  · have hr' : Reach (fun s x => s.polite x = true) clients s' := hr.tail x hok hn
    exact cancelInv_trans (politeInv_reach hr) hC (liveInv_reach hr) (stateLock_reach hr) (liveInv_reach hr')
      (next_trans hn).2

/-- A processor that was stopped holds nothing that anybody waits for, once its queue is freed. -/
theorem subReaders_of_polite (h : Reach (fun s x => s.polite x = true) clients s) (hu : u ∈ s.subReaders) :
    ∃ q, u = .procer q ∧ (s.procer q).reading = true := by
  have hH := holdInv_reach h
  cases u with
  | client n => exact absurd hu (hH.client n)
  | procer q =>
    refine ⟨q, rfl, (hH.reader q hu).resolve_right fun he => ?_⟩
    obtain ⟨v, hv⟩ := Option.isSome_iff_exists.mp ((stopInv_of_polite h q).ended he).1
    obtain ⟨rfl, -⟩ := hH.mutex q v hv
    exact (hH.ended q he).mp hv hu

end PlatIF.Evt
