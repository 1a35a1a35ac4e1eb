import PlatIF.Ioc.PostResult
import PlatIF.Ioc.Slots

/-!
# SYNC fan-outs

A SYNC call of `postEVT` runs callbacks that may subscribe and unsubscribe, so the table changes under the loop; and
they may write the descriptor of the call.  The call is watched from its entry: the states that the run goes through
meanwhile, and the steps that the call takes itself.  Of a subscription that stays live all the time the slot cannot
change, and the index of the loop passes every slot once.

* `Trans.syncStep` — what a step of the thread does to a SYNC call of its stack;
* `fanInv_run` — what a SYNC call has called, slot by slot, at every moment;
* `sync_exact` — the law.
-/

namespace PlatIF.Ioc

variable {abi : Abi} {s s' s₀ : State abi} {t u : Tid} {a : Act abi} {i j g : ℕ} {d : EvtDesc abi}
  {f f' f₀ : PostFrame abi} {r : TosResult} {rest above : List (Frame abi)} {maxSuberNum : ULong abi} {clients : ℕ}
  {ok : State abi → Tid × Act abi → Prop}

/-! ### A call that is watched -/

/-- A call of `postEVT`, watched from its entry. -/
structure CallRun (abi : Abi) where
  state : State abi
  /-- The states since the entry. -/
  seen : List (State abi)
  /-- The steps that the call has taken, each with the state before and after it. -/
  own : List (State abi × State abi)

/-- The watch begins. -/
def CallRun.start (s : State abi) : CallRun abi := ⟨s, [s], []⟩

/-- A step of any thread during the call, which stands on `n` frames of thread `t`; the return is none. -/
def CallRun.next (t : Tid) (n : ℕ) (x : CallRun abi) (y : Tid × Act abi) : Option (CallRun abi) :=
  (Ioc.next x.state y).bind fun s' =>
    if n < (s'.frames t).length then
      some {
        state := s'
        seen := x.seen ++ [s']
        own := x.own ++ if y.1 = t ∧ (x.state.frames t).length = n + 1 then [(x.state, s')] else [] }
    else none

/-- The callbacks that the call has called, in order, each with the state it was called in. -/
def CallRun.calls (t : Tid) (x : CallRun abi) : List (State abi × CbFrame abi) :=
  x.own.filterMap fun p => (p.2.topCb t).map fun c => (p.1, c)

/-- Subscription `g` is live in slot `j`. -/
def State.Live (s : State abi) (j g : ℕ) : Prop := (s.suber j).occupied ∧ s.sid j = g

/-- Subscription `g` has been live in slot `j` since the entry. -/
def CallRun.Stays (x : CallRun abi) (j g : ℕ) : Prop := ∀ s ∈ x.seen, s.Live j g

/-- The callback is that of a live subscription which lists the event, as its slot is in `s`. -/
structure CbFrame.Serves (c : CbFrame abi) (s : State abi) (d : EvtDesc abi) : Prop where
  live : s.Live c.suberIdx c.sid
  lists : (s.suber c.suberIdx).args.lists d = true
  cbProcEvtF : c.cbProcEvtF = (s.suber c.suberIdx).args.cbProcEvtF
  pCbPriv : c.pCbPriv = (s.suber c.suberIdx).args.pCbPriv
  pEvtDesc : c.pEvtDesc = d

theorem CallRun.next_eq {x y : CallRun abi} {n : ℕ} (h : x.next t n (u, a) = some y) :
    Ioc.next x.state (u, a) = some y.state ∧ n < (y.state.frames t).length ∧ y.seen = x.seen ++ [y.state] ∧
      y.own = x.own ++ if u = t ∧ (x.state.frames t).length = n + 1 then [(x.state, y.state)] else [] := by
  obtain ⟨s', hs, h⟩ := Option.bind_eq_some_iff.mp h
  by_cases hn : n < (s'.frames t).length
  · rw [if_pos hn, Option.some.injEq] at h
    subst h
    exact ⟨hs, hn, rfl, rfl⟩
  · rw [if_neg hn] at h
    simp at h

/-- A subscription that has stayed so far stayed before. -/
theorem CallRun.Stays.prev {x y : CallRun abi} (hy : y.Stays j g) (h : y.seen = x.seen ++ [s]) : x.Stays j g :=
  fun s hs => hy s (h ▸ List.mem_append_left _ hs)

/-! ### The steps of a SYNC call -/

/-- What a step of `t` does to a SYNC call that stands on `rest`, short of its return. -/
inductive SyncStep (s s' : State abi) (t : Tid) (a : Act abi) (f : PostFrame abi) (above rest : List (Frame abi)) : Prop
  | stays (above' : List (Frame abi)) (h : s'.frames t = above' ++ .post f :: rest) (he : above = [] ↔ above' = [])
      (hc : above = [] → s'.ctx = s.ctx)
  | locked (ha : above = []) (hp : f.pc = .lock)
      (h : s'.frames t = .post { f with pc := .loop 0, table := s.ctx.pEvtSubers } :: rest)
      (hc : s'.ctx.pEvtSubers = s.ctx.pEvtSubers)
  | skipped {i : ℕ} (ha : above = []) (hp : f.pc = .loop i) (hl : (s.suber i).args.lists f.pEvtDesc = false)
      (h : s'.frames t = .post { f with pc := .loop (i + 1), tested := f.tested ++ [f.pEvtDesc] } :: rest)
      (hc : s'.ctx = s.ctx)
  | called {i : ℕ} {c : CbFrame abi} (ha : above = []) (hp : f.pc = .loop i) (hs : c.Serves s f.pEvtDesc)
      (hi : c.suberIdx = i)
      (h : s'.frames t = .cb c :: .post { f with pc := .inCb i, tested := f.tested ++ [f.pEvtDesc] } :: rest)
      (hc : s'.ctx = s.ctx)
  | wrote {i : ℕ} {c : CbFrame abi} {d : EvtDesc abi} (ha : above = [.cb c]) (hw : a = .write d) (hp : f.pc = .inCb i)
      (h : s'.frames t = .cb c :: .post { f with pEvtDesc := d } :: rest)
  | returned {i : ℕ} {c : CbFrame abi} {r : TosResult} (ha : above = [.cb c]) (hr : a = .ret r) (hp : f.pc = .inCb i)
      (h : s'.frames t = .post { f with
        pc := .loop (i + 1), result := r, isCbProcEvtFound := true, visits := f.visits ++ [(i, .callback r)] } :: rest)

/-- A SYNC call never comes to a queue. -/
theorem PostFrame.Kind.pc_of_sync {sync : Bool} (hK : f.Kind sync) (hV : f.Sound)
    (hy : (isSyncMode f.pOptions || sync) = true) :
    f.pc = .lock ∨ ∃ i, f.pc = .loop i ∨ f.pc = .inCb i := by
  cases hp : f.pc with
  | lock => exact .inl rfl
  | loop i => exact .inr ⟨i, .inl rfl⟩
  | inCb i => exact .inr ⟨i, .inr rfl⟩
  | push i =>
    have := hK.push i (.inl hp)
    simp [hy] at this
  | retry i =>
    have := hK.push i (.inr hp)
    simp [hy] at this
  | signal i =>
    simp only [PostFrame.Sound, hp] at hV
    obtain ⟨vs, hv, -⟩ := hV
    have := hK.visits (i, .queue true) (by simp [hv])
    simp [Visit.isCallback, hy] at this

/-- A SYNC call that is on top of its stack. -/
theorem Trans.syncStep_top (h : Trans s t a s') (hf : s.frames t = .post f :: rest) (hy : s.isSync f = true)
    (hd : s.desc t f = f.pEvtDesc) (hpc : f.pc = .lock ∨ ∃ i, f.pc = .loop i ∨ f.pc = .inCb i) (hn : rest.length < (s'.frames t).length) :
    SyncStep s s' t a f [] rest := by
  have hw : ∀ {p fs}, s.frames t = .post p :: fs → f = p ∧ rest = fs := fun h => by simpa using hf.symm.trans h
  cases h
  case call hu => simp [State.userOnTop, hf] at hu
  case postLock hf' hp _ _ =>
    obtain ⟨rfl, rfl⟩ := hw hf'
    exact .locked rfl hp (by simp) rfl
  case postSkip hf' hp _ hl =>
    obtain ⟨rfl, rfl⟩ := hw hf'
    rw [hd] at hl
    exact .skipped rfl hp hl (by simp [hd]) rfl
  case postSync i hf' hp _ hl _ =>
    obtain ⟨rfl, rfl⟩ := hw hf'
    rw [hd] at hl
    refine .called (c := ⟨i, (s.suber i).args.cbProcEvtF, (s.suber i).args.pCbPriv, f.pEvtDesc, s.sid i, s.depth t⟩)
      rfl hp ⟨⟨EvtSubArgs.cb_ne_null_of_lists hl, rfl⟩, hl, rfl, rfl, rfl⟩ rfl ?_ rfl
    simp only [State.obs, State.setFrames, Function.update_self, hd]
  case postASync hf' _ _ _ hs =>
    obtain ⟨rfl, rfl⟩ := hw hf'
    simp [hy] at hs
  case postNotFound hf' _ _ _ | postBusy hf' _ _ _ | postCache hf' _ _ _ _ _ _ | postCacheFull hf' _ _ _ _ _ _ |
      postEnd hf' _ _ =>
    obtain ⟨rfl, rfl⟩ := hw hf'
    simp at hn
  case postAccept hf' hp _ _ | postFull hf' hp _ _ _ | postRetry hf' hp _ _ _ _ | postSignal hf' hp _ |
      postRetrySignal hf' hp _ | haltPush hf' hp =>
    obtain ⟨rfl, rfl⟩ := hw hf'
    simp [hp] at hpc
  case halt => exact .stays [] hf (by simp) fun _ => rfl
  all_goals simp_all

/-- A SYNC call under the callback that it runs. -/
theorem Trans.syncStep_cb (h : Trans s t a s') {c : CbFrame abi} (hf : s.frames t = .cb c :: .post f :: rest) :
    SyncStep s s' t a f [.cb c] rest := by
  cases h
  case call api _ => exact .stays [s.frameOf t api, .cb c] (by simp [hf]) (by simp) (by simp)
  case cbRetPost r hf' hp =>
    have he := hf.symm.trans hf'
    simp only [List.cons.injEq, Frame.cb.injEq, Frame.post.injEq] at he
    obtain ⟨rfl, rfl, rfl⟩ := he
    exact .returned rfl rfl hp (by simp)
  case cbWrite hf' hp _ =>
    have he := hf.symm.trans hf'
    simp only [List.cons.injEq, Frame.cb.injEq, Frame.post.injEq] at he
    obtain ⟨rfl, rfl, rfl⟩ := he
    exact .wrote rfl rfl hp (by simp)
  case halt => exact .stays [.cb c] hf (by simp) (by simp)
  all_goals simp_all

/-- A SYNC call under an API call that its callback has made. -/
theorem Trans.syncStep_above (h : Trans s t a s') {y z : Frame abi}
    (hf : s.frames t = y :: z :: above ++ .post f :: rest) : SyncStep s s' t a f (y :: z :: above) rest := by
  cases h.framesStep with
  | same h => exact .stays (y :: z :: above) (h.trans hf) (by simp) (by simp)
  | @called api _ _ h => exact .stays (s.frameOf t api :: y :: z :: above) (by simp [h, hf]) (by simp) (by simp)
  | returned h =>
    have he := (h.symm.trans hf)
    simp only [List.cons_append, List.cons.injEq] at he
    exact .stays (z :: above) he.2 (by simp) (by simp)
  | @unsub _ g _ hf' h =>
    have he := hf.symm.trans hf'
    simp only [List.cons_append, List.cons.injEq] at he
    exact .stays (.unsub g :: z :: above) (by rw [h, ← he.2]; rfl) (by simp) (by simp)
  | @post _ g _ hf' h =>
    have he := hf.symm.trans hf'
    simp only [List.cons_append, List.cons.injEq] at he
    exact .stays (.post g :: z :: above) (by rw [h, ← he.2]; rfl) (by simp) (by simp)
  | @sync g k c _ _ _ hf' _ _ _ _ _ h =>
    have he := hf.symm.trans hf'
    simp only [List.cons_append, List.cons.injEq] at he
    exact .stays (.cb c :: .post { g with pc := .inCb k, tested := g.tested ++ [s.desc t g] } :: z :: above)
      (by rw [h, ← he.2]; rfl) (by simp) (by simp)
  | @wrote c g _ d _ _ hf' _ _ h =>
    have he := hf.symm.trans hf'
    simp only [List.cons_append, List.cons.injEq] at he
    exact .stays (.cb c :: .post { g with pEvtDesc := d } :: above) (by rw [h, ← he.2.2]; rfl) (by simp) (by simp)
  | @cbReturned _ _ g _ hf' h =>
    have he := hf.symm.trans hf'
    simp only [List.cons_append, List.cons.injEq] at he
    exact .stays (.post g :: above) (by rw [h, ← he.2.2]; rfl) (by simp) (by simp)
  | delivered hf' | replayed hf' => simp [hf] at hf'

theorem Trans.syncStep (hT : ThreadInv s) (hm : s.ctx.isSyncMode = false) (h : Trans s t a s')
    (hf : s.frames t = above ++ .post f :: rest) (hy : s.isSync f = true) (hpc : f.pc = .lock ∨ ∃ i, f.pc = .loop i ∨ f.pc = .inCb i)
    (hn : rest.length < (s'.frames t).length) : SyncStep s s' t a f above rest := by
  cases above with
  | nil =>
    refine h.syncStep_top hf hy (s.desc_of_not_replay t f ?_) hpc hn
    -- a replay is ASYNC
    have hS := hT.stack t
    rw [hf] at hS
    by_contra hr
    simp [State.isSync, hS.replay_options (by simpa using hr), hm] at hy
  | cons y above =>
    cases above with
    | cons z above => exact h.syncStep_above hf
    | nil =>
      -- on a call of `postEVT` stands user code
      have hS := hT.stack t
      cases y with
      | cb c => exact h.syncStep_cb hf
      | sub g | unsub g | post g =>
        rw [hf] at hS
        exact absurd (hS.below_api rfl) (by simp [Frame.isApi])

/-! ### What the call has called -/

/-- How many slots have had their turn. -/
def PostPc.begun : PostPc → ℕ
  | .lock => 0
  | .loop i => i
  | .inCb i | .push i | .signal i | .retry i => i + 1

/-- How many callbacks of the call are running. -/
def PostPc.running : PostPc → ℕ
  | .inCb _ => 1
  | _ => 0

/-- What the call has called by the time its frame is `f`. -/
structure CallRun.Fanned (x : CallRun abi) (s₀ : State abi) (t : Tid) (f : PostFrame abi) : Prop where
  ascending : (x.calls t).Pairwise fun p q => p.2.suberIdx < q.2.suberIdx
  serves : ∀ p ∈ x.calls t, p.1 ∈ x.seen ∧ p.2.Serves p.1 (f.atTurn p.2.suberIdx)
  below : ∀ p ∈ x.calls t, p.2.suberIdx < f.pc.begun
  covers : ∀ j g, j < f.pc.begun → x.Stays j g → (s₀.suber j).args.lists (f.atTurn j) = true →
    ∃ p ∈ x.calls t, p.2.suberIdx = j
  count : (x.calls t).length = f.visits.length + f.pc.running
  tested : f.tested.length = f.pc.begun

section

variable {x y : CallRun abi}

theorem CallRun.calls_append {os : List (State abi × State abi)} (ho : y.own = x.own ++ os) :
    y.calls t = x.calls t ++ os.filterMap fun p => (p.2.topCb t).map fun c => (p.1, c) := by
  rw [CallRun.calls, ho, List.filterMap_append]
  rfl

/-- The call goes on without a new callback; it has tested the slots of `ds`. -/
theorem CallRun.Fanned.next (hF : x.Fanned s₀ t f) (hs : y.seen = x.seen ++ [s']) (hc : y.calls t = x.calls t)
    {ds : List (EvtDesc abi)} (hd : f'.tested = f.tested ++ ds) (hb : f'.pc.begun = f.pc.begun + ds.length)
    (hv : f'.visits.length + f'.pc.running = f.visits.length + f.pc.running)
    (hcov : ∀ j g, f.pc.begun ≤ j → j < f'.pc.begun → x.Stays j g →
      (s₀.suber j).args.lists (f'.atTurn j) = true → False) :
    y.Fanned s₀ t f' := by
  have hturn : ∀ {j}, j < f.pc.begun → f'.atTurn j = f.atTurn j := fun hj =>
    PostFrame.atTurn_append hd (by rwa [hF.tested])
  refine ⟨hc ▸ hF.ascending, fun p hp => ?_, fun p hp => ?_, fun j g hj hy hl => ?_, ?_, ?_⟩
  · have hp := hc ▸ hp
    obtain ⟨hm, hserve⟩ := hF.serves p hp
    exact ⟨hs ▸ List.mem_append_left _ hm, (hturn (hF.below p hp)).symm ▸ hserve⟩
  · have hlt := hF.below p (hc ▸ hp)
    omega
  · by_cases hjf : j < f.pc.begun
    · obtain ⟨p, hp, hj⟩ := hF.covers j g hjf (hy.prev hs) (hturn hjf ▸ hl)
      exact ⟨p, hc ▸ hp, hj⟩
    · exact (hcov j g (Nat.le_of_not_lt hjf) hj (hy.prev hs) hl).elim
  · rw [hc, hF.count, hv]
  · rw [hd, List.length_append, hF.tested, hb]

/-- The call calls the callback of the slot whose turn it is. -/
theorem CallRun.Fanned.called (hF : x.Fanned s₀ t f) (hs : y.seen = x.seen ++ [s']) {c : CbFrame abi}
    (hc : y.calls t = x.calls t ++ [(s, c)]) (hm : s ∈ x.seen) (hserve : c.Serves s d) (hp : f.pc = .loop c.suberIdx)
    (hp' : f'.pc = .inCb c.suberIdx) (hv : f'.visits = f.visits) (hd : f'.tested = f.tested ++ [d]) :
    y.Fanned s₀ t f' := by
  have hlen : f.tested.length = c.suberIdx := by simp [hF.tested, hp, PostPc.begun]
  have hbelow : ∀ p ∈ x.calls t, p.2.suberIdx < c.suberIdx := fun p hm => by
    simpa [hp, PostPc.begun] using hF.below p hm
  have hmem : ∀ {p}, p ∈ y.calls t ↔ p ∈ x.calls t ∨ p = (s, c) := by simp [hc]
  refine ⟨?_, fun p hp => ?_, fun p hp => ?_, fun j g hj hy hl => ?_, ?_, ?_⟩
  · rw [hc, List.pairwise_append]
    exact ⟨hF.ascending, List.pairwise_singleton _ _, fun p hm q hq => by
      rw [List.mem_singleton.mp hq]
      exact hbelow p hm⟩
  · rcases hmem.mp hp with hp | rfl
    · obtain ⟨hm, hserve⟩ := hF.serves p hp
      rw [PostFrame.atTurn_append hd (by rw [hlen]; exact hbelow p hp)]
      exact ⟨hs ▸ List.mem_append_left _ hm, hserve⟩
    · rw [PostFrame.atTurn_tested hlen hd]
      exact ⟨hs ▸ List.mem_append_left _ hm, hserve⟩
  · rw [hp', PostPc.begun]
    rcases hmem.mp hp with hp | rfl
    · exact (hbelow p hp).trans (Nat.lt_succ_self _)
    · exact Nat.lt_succ_self _
  · rw [hp', PostPc.begun, Nat.lt_succ_iff_lt_or_eq] at hj
    rcases hj with hj | rfl
    · rw [PostFrame.atTurn_append hd (by rwa [hlen])] at hl
      obtain ⟨p, hm, hpj⟩ := hF.covers j g (by simpa [hp, PostPc.begun] using hj) (hy.prev hs) hl
      exact ⟨p, hmem.mpr (.inl hm), hpj⟩
    · exact ⟨(s, c), hmem.mpr (.inr rfl), rfl⟩
  · rw [hc, List.length_append, hF.count, hp, hp', hv]
    rfl
  · rw [hd, List.length_append, hlen, hp']
    rfl

/-! ### The states of the run -/

/-- The states of the run are reachable, and what stays live keeps its arguments. -/
structure CallRun.SeenInv (maxSuberNum : ULong abi) (clients : ℕ) (s₀ : State abi) (x : CallRun abi) : Prop where
  reach : ∀ s ∈ x.seen, Reach (fun _ _ => True) maxSuberNum clients s
  now : x.state ∈ x.seen
  args : ∀ j g, x.Stays j g → ∀ s ∈ x.seen, (s.suber j).args = (s₀.suber j).args

theorem CallRun.SeenInv.next (hI : x.SeenInv maxSuberNum clients s₀) (h : Ioc.next x.state (u, a) = some y.state)
    (hs : y.seen = x.seen ++ [y.state]) : y.SeenInv maxSuberNum clients s₀ := by
  have hr := hI.reach _ hI.now
  have hr' : Reach (fun _ _ => True) maxSuberNum clients y.state := hr.tail _ trivial h
  have hmem : ∀ {s}, s ∈ y.seen ↔ s ∈ x.seen ∨ s = y.state := by simp [hs]
  refine ⟨fun s hm => ?_, hmem.mpr (.inr rfl), fun j g hy s hm => ?_⟩
  · rcases hmem.mp hm with hm | rfl
    · exact hI.reach s hm
    · exact hr'
  · have hx := hy.prev hs
    rcases hmem.mp hm with hm | rfl
    · exact hI.args j g hx s hm
    · have hlive := hx _ hI.now
      have hlive' := hy _ (hmem.mpr (.inr rfl))
      have he := (next_trans h).2.effect (threadInv_reach hr) (allocInv_reach hr)
      have hlt := (slotInv_reach hr).sid_lt j
      rcases he.live hlive'.1 with ⟨hsid, -⟩ | ⟨-, -, hargs⟩
      · -- a new subscription has a number of its own
        rw [hlive'.2, ← hlive.2] at hsid
        omega
      · exact hargs.trans (hI.args j g hx _ hI.now)

/-! ### The run of a SYNC call -/

/-- The step is neither the return of `TOS_RESULT_NO_EVT_SUBER` from a callback of the call, nor a write of such a callback
to the descriptor. -/
def CallRun.plainAnswer (t : Tid) (n : ℕ) (x : CallRun abi) (y : Tid × Act abi) : Bool :=
  match y.2 with
  | .ret r => y.1 != t || (x.state.frames t).length != n + 2 || r != .noEvtSuber
  | .write _ => y.1 != t || (x.state.frames t).length != n + 2
  | _ => true

/-- The callbacks of the call have answered so: the descriptor is `d` as it was, and no visit came to
`TOS_RESULT_NO_EVT_SUBER`. -/
structure PostFrame.Plain (d : EvtDesc abi) (f : PostFrame abi) : Prop where
  pEvtDesc : f.pEvtDesc = d
  tested : ∀ e ∈ f.tested, e = d
  visits : ∀ v ∈ f.visits, v.2.outcome ≠ .noEvtSuber

theorem PostFrame.Plain.atTurn (h : f.Plain d) (j : ℕ) : f.atTurn j = d := by
  rw [PostFrame.atTurn, List.getD_eq_getElem?_getD]
  cases hj : f.tested[j]? with
  | none => exact h.pEvtDesc
  | some e => exact h.tested e (List.mem_of_getElem? hj)

theorem PostFrame.Plain.test (h : f.Plain d) (hp : f'.pEvtDesc = f.pEvtDesc) (ht : f'.tested = f.tested ++ [f.pEvtDesc])
    (hv : f'.visits = f.visits) : f'.Plain d := by
  refine ⟨hp.trans h.pEvtDesc, fun e he => ?_, hv ▸ h.visits⟩
  rw [ht, List.mem_append, List.mem_singleton] at he
  rcases he with he | rfl
  · exact h.tested e he
  · exact h.pEvtDesc

/-- What holds all along a SYNC call of thread `t` that stands on `rest`; with `strict`, its callbacks have answered as
`plainAnswer` says. -/
structure CallRun.FanInv (strict : Bool) (maxSuberNum : ULong abi) (clients : ℕ) (s₀ : State abi) (t : Tid)
    (f₀ : PostFrame abi) (rest : List (Frame abi)) (x : CallRun abi) : Prop where
  seen : x.SeenInv maxSuberNum clients s₀
  still : ∀ p ∈ x.own, p.2.ctx.pEvtSubers = p.1.ctx.pEvtSubers
  call : ∃ above f, x.state.frames t = above ++ .post f :: rest ∧ f.pOptions = f₀.pOptions ∧
    (f.pc = .lock → f.pEvtDesc = f₀.pEvtDesc) ∧ x.Fanned s₀ t f ∧ (strict = true → f.Plain f₀.pEvtDesc)

/-- The steps of the thread of the call. -/
theorem CallRun.FanInv.next_self {strict : Bool} (hI : x.FanInv strict maxSuberNum clients s₀ t f₀ rest)
    (hy : s₀.isSync f₀ = true) (hm : x.state.ctx.isSyncMode = s₀.ctx.isSyncMode)
    (hok : strict = true → x.plainAnswer t rest.length (t, a) = true) (h : x.next t rest.length (t, a) = some y) :
    y.FanInv strict maxSuberNum clients s₀ t f₀ rest := by
  obtain ⟨hseen, hstill, above, f, hf, ho, hd, hF, hN⟩ := hI
  obtain ⟨hn, hlen, hs, hown⟩ := CallRun.next_eq h
  have hr := hseen.reach _ hseen.now
  have hT := threadInv_reach hr
  have hmem : Frame.post f ∈ x.state.frames t := by simp [hf]
  have hsync : x.state.isSync f = true := by
    unfold State.isSync at *
    rwa [ho, hm]
  have hpc := (kind_reach hr t f hmem).pc_of_sync (sound_reach hr t f hmem) hsync
  -- whose step it is
  have hlen₀ : (x.state.frames t).length = rest.length + 1 ↔ above = [] := by
    rw [hf, List.length_append, List.length_cons, ← List.length_eq_zero_iff]
    omega
  have hown' : y.own = x.own ++ if above = [] then [(x.state, y.state)] else [] := by
    rw [hown]
    simp only [true_and, hlen₀]
  have hcalls := CallRun.calls_append (t := t) hown'
  have hstill' : (above = [] → y.state.ctx.pEvtSubers = x.state.ctx.pEvtSubers) →
      ∀ p ∈ y.own, p.2.ctx.pEvtSubers = p.1.ctx.pEvtSubers := fun hc p hp => by
    rw [hown', List.mem_append] at hp
    rcases hp with hp | hp
    · exact hstill p hp
    · by_cases ha : above = []
      · rw [if_pos ha, List.mem_singleton] at hp
        rw [hp]
        exact hc ha
      · simp [ha] at hp
  suffices hrest : (∀ p ∈ y.own, p.2.ctx.pEvtSubers = p.1.ctx.pEvtSubers) ∧ ∃ above f,
      y.state.frames t = above ++ .post f :: rest ∧ f.pOptions = f₀.pOptions ∧
        (f.pc = .lock → f.pEvtDesc = f₀.pEvtDesc) ∧ y.Fanned s₀ t f ∧ (strict = true → f.Plain f₀.pEvtDesc) from
    ⟨hseen.next hn hs, hrest.1, hrest.2⟩
  cases (next_trans hn).2.syncStep hT (isSyncMode_reach hr) hf hsync hpc hlen with
  | @stays above' h he hc =>
    have hsame : y.calls t = x.calls t := by
      rw [hcalls]
      by_cases ha : above = []
      · have ha' := he.mp ha
        subst ha'
        simp [ha, State.topCb, h]
      · simp [ha]
    exact ⟨hstill' fun ha => by rw [hc ha], above', f, h, ho, hd,
      hF.next hs hsame (List.append_nil _).symm rfl rfl (by omega), hN⟩
  | locked ha hp h hc =>
    have hsame : y.calls t = x.calls t := by simp [hcalls, ha, State.topCb, h]
    exact ⟨hstill' fun _ => hc, [], _, h, ho, fun hp' => by simp at hp',
      hF.next hs hsame (List.append_nil _).symm (by simp [hp, PostPc.begun]) (by simp [hp, PostPc.running])
        (fun j g _ hj => by simp [PostPc.begun] at hj), fun hst => ⟨(hN hst).pEvtDesc, (hN hst).tested, (hN hst).visits⟩⟩
  | @skipped i ha hp hl h hc =>
    have hsame : y.calls t = x.calls t := by simp [hcalls, ha, State.topCb, h]
    have hi : f.tested.length = i := by simp [hF.tested, hp, PostPc.begun]
    refine ⟨hstill' fun _ => by rw [hc], [], _, h, ho, fun hp' => by simp at hp',
      hF.next hs hsame rfl (by simp [hp, PostPc.begun]) (by simp [hp, PostPc.running])
        (fun j g hj hj' hst hlist => ?_), fun hst => (hN hst).test rfl rfl rfl⟩
    -- a subscription that stays in the slot lists what it listed at the entry
    simp only [hp, PostPc.begun] at hj hj'
    obtain rfl : j = i := by omega
    rw [PostFrame.atTurn_tested (f := f) hi rfl] at hlist
    rw [hseen.args j g hst _ hseen.now, hlist] at hl
    simp at hl
  | @called i c ha hp hserve hi h hc =>
    subst hi
    have hcalled : y.calls t = x.calls t ++ [(x.state, c)] := by simp [hcalls, ha, State.topCb, h]
    exact ⟨hstill' fun _ => by rw [hc], [.cb c], _, h, ho, fun hp' => by simp at hp',
      hF.called hs hcalled hseen.now hserve hp rfl rfl rfl, fun hst => (hN hst).test rfl rfl rfl⟩
  | @wrote i c d ha hw hp h =>
    have hne : above ≠ [] := by simp [ha]
    have hsame : y.calls t = x.calls t := by simp [hcalls, ha]
    refine ⟨hstill' fun h => absurd h hne, [.cb c], _, h, ho, fun hp' => by simp [hp] at hp',
      hF.next hs hsame (List.append_nil _).symm rfl rfl (fun j g hj hj' => absurd hj' (Nat.not_lt.mpr hj)), fun hst => ?_⟩
    have hok := hok hst
    simp [CallRun.plainAnswer, hw, hf, ha] at hok
  | @returned i c r ha hr hp h =>
    have hne : above ≠ [] := by simp [ha]
    have hsame : y.calls t = x.calls t := by simp [hcalls, ha]
    refine ⟨hstill' fun h => absurd h hne, [], _, h, ho, fun hp' => by simp at hp',
      hF.next hs hsame (List.append_nil _).symm (by simp [hp, PostPc.begun]) (by simp [hp, PostPc.running])
        (fun j g hj hj' => by simp [hp, PostPc.begun] at hj hj'; omega),
      fun hst => ⟨(hN hst).pEvtDesc, (hN hst).tested, fun v hv => ?_⟩⟩
    rcases List.mem_append.mp hv with hv | hv
    · exact (hN hst).visits v hv
    · have hok := hok hst
      rw [List.mem_singleton.mp hv]
      subst hr
      simpa [CallRun.plainAnswer, hf, ha, Visit.outcome] using hok

/-- The steps of the other threads. -/
theorem CallRun.FanInv.next_ne {strict : Bool} (hI : x.FanInv strict maxSuberNum clients s₀ t f₀ rest) (hu : u ≠ t)
    (h : x.next t rest.length (u, a) = some y) : y.FanInv strict maxSuberNum clients s₀ t f₀ rest := by
  obtain ⟨hseen, hstill, above, f, hf, ho, hd, hF, hN⟩ := hI
  obtain ⟨hn, -, hs, hown⟩ := CallRun.next_eq h
  have hown : y.own = x.own := by simpa [hu] using hown
  have hcalls : y.calls t = x.calls t := by rw [CallRun.calls, hown, CallRun.calls]
  refine ⟨hseen.next hn hs, hown ▸ hstill, above, f, ?_, ho, hd,
    hF.next hs hcalls (List.append_nil _).symm rfl rfl (by omega), hN⟩
  rw [(next_trans hn).2.frames_ne hu.symm]
  exact hf

/-- **What a SYNC call has called, at every moment.** -/
theorem fanInv_run {strict : Bool} {okr : CallRun abi → Tid × Act abi → Prop}
    (hok : ∀ x y, okr x y → strict = true → x.plainAnswer t rest.length y = true)
    (h₀ : Reach ok maxSuberNum clients s₀) (hf₀ : s₀.frames t = .post f₀ :: rest) (hp₀ : f₀.pc = .lock)
    (hy : s₀.isSync f₀ = true) (hx : Runs.ReachUnder (CallRun.next t rest.length) okr (.start s₀) x) :
    x.FanInv strict maxSuberNum clients s₀ t f₀ rest := by
  have hr₀ : Reach (fun _ _ => True) maxSuberNum clients s₀ := h₀.mono fun _ _ _ => trivial
  refine Runs.ReachUnder.invariant (P := fun x : CallRun abi => x.FanInv strict maxSuberNum clients s₀ t f₀ rest)
    ?start ?step hx
  case start =>
    have hV := sound_reach hr₀ t f₀ (by simp [hf₀])
    simp only [PostFrame.Sound, hp₀] at hV
    refine ⟨⟨fun s hs => ?_, List.mem_singleton_self _, fun j g _ s hs => ?_⟩, fun p hp => ?_,
      [], f₀, hf₀, rfl, fun _ => rfl, ⟨.nil, fun p hp => ?_, fun p hp => ?_, fun j g hj => ?_, ?_, ?_⟩,
      fun _ => ⟨rfl, by simp [hV.2.2], fun v hv => ?_⟩⟩
    · rw [List.mem_singleton.mp hs]
      exact hr₀
    · rw [List.mem_singleton.mp hs]
    · simp [CallRun.start] at hp
    · simp [CallRun.calls, CallRun.start] at hp
    · simp [CallRun.calls, CallRun.start] at hp
    · simp [hp₀, PostPc.begun] at hj
    · simp [CallRun.calls, CallRun.start, hV.1, hp₀, PostPc.running]
    · simp [hV.2.2, hp₀, PostPc.begun]
    · simp [hV.1] at hv
  case step =>
    intro x y z _ hI hokx hn
    obtain ⟨u, a⟩ := z
    by_cases hu : u = t
    · subst hu
      have hr := hI.seen.reach _ hI.seen.now
      exact hI.next_self hy ((isSyncMode_reach hr).trans (isSyncMode_reach hr₀).symm) (hok _ _ hokx) hn
    · exact hI.next_ne hu hn

/-! ### The end of the call -/

/-- The call is on top of the stack when nothing else is above what it stands on. -/
theorem eq_of_append_call {fs : List (Frame abi)} (hf : fs = above ++ .post f :: rest) (hf' : fs = .post f' :: rest) :
    above = [] ∧ f = f' := by
  have hlen := congrArg List.length (hf.symm.trans hf')
  simp only [List.length_append, List.length_cons] at hlen
  obtain rfl : above = [] := List.eq_nil_of_length_eq_zero (by omega)
  exact ⟨rfl, by simpa using hf.symm.trans hf'⟩

/-- The next step of the call is possible: at a slot it goes on to the next slot or calls the callback, and behind the
last slot it returns. -/
def State.GoesOn (s : State abi) (t : Tid) (f : PostFrame abi) (rest : List (Frame abi)) : Prop :=
  ∃ i s', f.pc = .loop i ∧ Ioc.next s (t, .go) = some s' ∧
    if i < s.ctx.maxSuberNum.toNat then
      s'.frames t = .post { f with pc := .loop (i + 1), tested := f.tested ++ [s.desc t f] } :: rest ∨
        ∃ c, s'.frames t = .cb c :: .post { f with pc := .inCb i, tested := f.tested ++ [s.desc t f] } :: rest
    else Returns s s' t (.post f) f.value

theorem State.goesOn (hh : s.halted = none) (hf : s.frames t = .post f :: rest) (hp : f.pc = .loop i)
    (hy : s.isSync f = true) : s.GoesOn t f rest := by
  refine ⟨i, s.postLoop t f rest i, hp, by simp [Ioc.next, State.step, hh, hf, State.postStep, hp], ?_⟩
  unfold State.postLoop
  by_cases hi : i < s.ctx.maxSuberNum.toNat
  · rw [if_pos hi, if_pos hi]
    by_cases hl : (s.suber i).args.lists (s.desc t f) = true
    · rw [if_pos hl, if_pos hy]
      exact .inr ⟨_, by simp; rfl⟩
    · rw [if_neg hl]
      exact .inl (by simp)
  · rw [if_neg hi, if_neg hi]
    exact ⟨by simp [hf], rfl, by simp⟩

/-- The frame of the call that comes to its end: every slot has had its turn. -/
theorem CallRun.FanInv.atEnd {strict : Bool} (hI : x.FanInv strict maxSuberNum clients s₀ t f₀ rest)
    (htop : x.state.frames t = .post f :: rest) (hp : f.pc = .loop i) (hend : ¬ i < x.state.ctx.maxSuberNum.toNat) :
    x.Fanned s₀ t f ∧ (strict = true → f.Plain f₀.pEvtDesc) ∧ ∀ j, j < maxSuberNum.toNat → j < f.pc.begun := by
  obtain ⟨above, f', hf, -, -, hF, hN⟩ := hI.call
  obtain ⟨rfl, rfl⟩ := eq_of_append_call hf htop
  rw [maxSuberNum_reach (hI.seen.reach _ hI.seen.now)] at hend
  refine ⟨hF, hN, fun j hj => ?_⟩
  rw [hp]
  exact hj.trans_le (Nat.le_of_not_lt hend)

/-- The call at slot `j` is that of the subscription that stayed there. -/
theorem CallRun.FanInv.sid_iff {strict : Bool} (hI : x.FanInv strict maxSuberNum clients s₀ t f₀ rest)
    (hF : x.Fanned s₀ t f) (hst : x.Stays j g) {q : State abi × CbFrame abi} (hq : q ∈ x.calls t) :
    q.2.sid = g ↔ q.2.suberIdx = j := by
  obtain ⟨hm, hserve⟩ := hF.serves q hq
  have hI' := slotInv_reach (hI.seen.reach _ hm)
  have hjg := hst _ hm
  constructor
  · intro he
    exact hI'.sid_inj _ _ (hserve.live.2.trans (he.trans hjg.2.symm)) (hI'.sid_pos _ hserve.live.1)
  · intro he
    rw [← hserve.live.2, he, hjg.2]

/-- At its end the call has called every subscription that stayed live and lists what the descriptor was at its turn, and
each of them once. -/
theorem CallRun.FanInv.once {strict : Bool} (hI : x.FanInv strict maxSuberNum clients s₀ t f₀ rest)
    (hF : x.Fanned s₀ t f) (hend : ∀ j, j < maxSuberNum.toNat → j < f.pc.begun) (hst : x.Stays j g)
    (hl : (s₀.suber j).args.lists (f.atTurn j) = true) :
    ∃ p, (x.calls t).filter (fun q => q.2.sid == g) = [p] ∧ p.2.suberIdx = j ∧
      p.2.pCbPriv = (s₀.suber j).args.pCbPriv := by
  have hnow := hst _ hI.seen.now
  have hj := hend j (occupied_lt_reach (hI.seen.reach _ hI.seen.now) j hnow.1)
  obtain ⟨p, hp, hpj⟩ := hF.covers j g hj hst hl
  have hslot : ∀ q ∈ x.calls t, q.2.sid = g ↔ q.2.suberIdx = j := fun q hq => hI.sid_iff hF hst hq
  refine ⟨p, ?_, hpj, ?_⟩
  · obtain ⟨l₁, l₂, hsplit⟩ := List.append_of_mem hp
    have hasc := hF.ascending
    rw [hsplit, List.pairwise_append, List.pairwise_cons] at hasc
    obtain ⟨-, ⟨hafter, -⟩, hbefore⟩ := hasc
    have h₁ : l₁.filter (fun q => q.2.sid == g) = [] := List.filter_eq_nil_iff.mpr fun q hq hg => by
      have hlt := hbefore q hq p List.mem_cons_self
      have := (hslot q (by simp [hsplit, hq])).mp (by simpa using hg)
      omega
    have h₂ : l₂.filter (fun q => q.2.sid == g) = [] := List.filter_eq_nil_iff.mpr fun q hq hg => by
      have hlt := hafter q hq
      have := (hslot q (by simp [hsplit, hq])).mp (by simpa using hg)
      omega
    rw [hsplit, List.filter_append, List.filter_cons, h₁, h₂, if_pos (by simpa using (hslot p hp).mpr hpj),
      List.nil_append]
  · obtain ⟨hm, hserve⟩ := hF.serves p hp
    rw [hserve.pCbPriv, hpj, hI.seen.args j g hst _ hm]

/-- **A SYNC fan-out is exact**, while its callbacks do not write the descriptor.  At every moment it has called only callbacks of live subscriptions that list the
event, in the order of the slots, and its own next step is possible.  When it returns, it has called every
subscription that stayed live, and each of them once; and it returns `TOS_RESULT_NO_EVT_SUBER` exactly if it has
called none. -/
theorem sync_exact (h₀ : Reach ok maxSuberNum clients s₀) (hf₀ : s₀.frames t = .post f₀ :: rest) (hp₀ : f₀.pc = .lock)
    (hy : s₀.isSync f₀ = true)
    (hx : Runs.ReachUnder (CallRun.next t rest.length) (fun x y => x.plainAnswer t rest.length y = true) (.start s₀) x) :
    (∀ p ∈ x.calls t, p.2.Serves p.1 f₀.pEvtDesc) ∧
      ((x.calls t).Pairwise fun p q => p.2.suberIdx < q.2.suberIdx) ∧
      (∀ f, x.state.halted = none → x.state.frames t = .post f :: rest → f.pc ≠ .lock → x.state.GoesOn t f rest) ∧
      ∀ a s' f r, Ioc.next x.state (t, a) = some s' → Returns x.state s' t (.post f) r → s'.frames t = rest →
        f.pc ≠ .lock →
          (∀ j g, x.Stays j g → (s₀.suber j).args.lists f₀.pEvtDesc = true →
            ∃ p, (x.calls t).filter (fun q => q.2.sid == g) = [p] ∧ p.2.suberIdx = j ∧
              p.2.pCbPriv = (s₀.suber j).args.pCbPriv) ∧
          (r = .noEvtSuber ↔ x.calls t = []) := by
  have hI : x.FanInv true maxSuberNum clients s₀ t f₀ rest := fanInv_run (fun _ _ h _ => h) h₀ hf₀ hp₀ hy hx
  obtain ⟨above, f, hf, ho, -, hF, hN⟩ := hI.call
  have hr := hI.seen.reach _ hI.seen.now
  refine ⟨fun p hp => (hN rfl).atTurn p.2.suberIdx ▸ (hF.serves p hp).2, hF.ascending, fun f' hh hf' hp => ?_,
    fun a s' f' r hn hret hrest hp => ?_⟩
  · obtain ⟨rfl, rfl⟩ := eq_of_append_call hf hf'
    have hsync : x.state.isSync f = true := by
      have hm := (isSyncMode_reach hr).trans (isSyncMode_reach h₀).symm
      unfold State.isSync at *
      rwa [ho, hm]
    have hmem : Frame.post f ∈ x.state.frames t := by simp [hf']
    have hS := (threadInv_reach hr).stack t
    rw [hf'] at hS
    rcases (kind_reach hr t f hmem).pc_of_sync (sound_reach hr t f hmem) hsync with hlock | ⟨i, hi | hi⟩
    · exact absurd hlock hp
    · exact State.goesOn hh hf' hi hsync
    · exact absurd hi (hS.of_post.1 i)
  · have htop := hrest ▸ hret.top
    rcases (next_trans hn).2.post_returns hret with ⟨hlock, -⟩ | ⟨⟨i, hi, hend⟩, rfl, -⟩
    · exact absurd hlock hp
    · obtain ⟨hF, hN, hdone⟩ := hI.atEnd htop hi hend
      have hV := sound_reach hr t f' (by simp [htop])
      simp only [PostFrame.Sound, hi] at hV
      have hcount := hF.count
      simp only [hi, PostPc.running, Nat.add_zero] at hcount
      refine ⟨fun j g hst hl => hI.once hF hdone hst ((hN rfl).atTurn j ▸ hl), ?_⟩
      rw [hV.1, ← List.length_eq_zero_iff, hcount, List.length_eq_zero_iff]
      constructor
      · intro he
        by_contra hne
        rw [fanOutResult, List.getLast?_eq_some_getLast hne] at he
        exact (hN rfl).visits _ (List.getLast_mem hne) he
      · intro he
        rw [he]
        rfl

end

/-- Thread `0` subscribes twice to event `7` and posts it SYNC. -/
def twoSubers : List (Tid × Act lp64) :=
  [(0, .call (.subEVT ⟨1, 1, some [7]⟩)), (0, .go), (0, .call (.subEVT ⟨2, 2, some [7]⟩)), (0, .go),
    (0, .call (.postEVT (.ofID lp64 7) (some ⟨optIDSyncMode, 0⟩)))]

/-- The first callback unsubscribes itself and subscribes anew, which fills its slot again; then the second one is
called. -/
def resubscribing : List (Tid × Act lp64) :=
  ([(0, .go), (0, .go), (0, .call (.unsubEVT (some ⟨1, 1⟩))), (0, .go), (0, .go),
    (0, .call (.subEVT ⟨3, 3, some [7, 7]⟩)), (0, .go), (0, .ret .success), (0, .go), (0, .ret .success)] :
      List (Tid × Act lp64)) ++ List.replicate 30 (0, .go)

/-- A fan-out whose first callback changes the table. -/
theorem sync_exact_resubscribing :
    ∃ (s₀ : State lp64) (x : CallRun lp64), x.Stays 1 2 ∧ (x.state.suber 0).occupied ∧ x.state.sid 0 = 3 ∧
      ((x.calls 0).Pairwise fun p q => p.2.suberIdx < q.2.suberIdx) ∧
        (∃ p, (x.calls 0).filter (fun q => q.2.sid == 2) = [p] ∧ p.2.suberIdx = 1 ∧
          p.2.pCbPriv = (s₀.suber 1).args.pCbPriv) ∧
        (TosResult.success = .noEvtSuber ↔ x.calls 0 = []) := by
  obtain ⟨s₀, hr₀, hs₀⟩ := reach_of_run (fun _ _ => True) (initMaxSuberNum lp64) 1 twoSubers
    (fun s : State lp64 => (s.onlyPost 0).any fun f : PostFrame lp64 => decide (f.pc = .lock) && s.isSync f &&
      (s.suber 1).args.lists f.pEvtDesc &&
      (Runs.runUnder (CallRun.next 0 0) (fun x y => x.plainAnswer 0 0 y = true) resubscribing (.start s)).any
        fun x : CallRun lp64 => (x.state.onlyPost 0).any fun f' : PostFrame lp64 => (next x.state (0, .go)).any
          fun s' : State lp64 => decide (f'.pc ≠ .lock) && s'.returned 0 .success &&
            x.seen.all (fun s : State lp64 => decide ((s.suber 1).occupied) && s.sid 1 == 2) &&
            decide ((x.state.suber 0).occupied) && x.state.sid 0 == 3) (by decide +kernel)
  simp only [Option.any_eq_true, State.onlyPost_eq_some, Bool.and_eq_true, decide_eq_true_eq, List.all_eq_true,
    beq_iff_eq] at hs₀
  obtain ⟨f, hf, ⟨⟨hp, hy⟩, hl⟩, x, hx, f', hf', s', hn, ⟨⟨⟨hp', hret⟩, hst⟩, ho⟩, hsid⟩ := hs₀
  have hret' := returns_of_returned hf' rfl hret
  have hrest : s'.frames 0 = [] := (List.cons.inj (hf'.symm.trans hret'.top)).2.symm
  obtain ⟨-, hasc, -, hend⟩ := sync_exact hr₀ hf hp hy (Runs.runUnder_reach hx)
  obtain ⟨honce, hnone⟩ := hend .go s' f' .success hn hret' hrest hp'
  exact ⟨s₀, x, hst, ho, hsid, hasc, honce 1 2 hst hl, hnone⟩

end PlatIF.Ioc
