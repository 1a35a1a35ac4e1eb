import PlatIF.Ioc.DrainLoop

/-!
# Quiescent states, and the posts made from them

A quiescent state is one between calls: nothing is queued or cached, and no call and no callback runs.  What the history
has left in it are slots with their counters and flags, threads that rest at any point of their loop, and the context
mutex, which a failed `subEVT` leaves locked.

`PostRun` watches a run for the callbacks it makes and for the return of the post that began it.

* `Outcome` — what a post from a quiescent state can return, and the callbacks it can cause;
* `State.postOutcome` — what the subscriptions decide;
* `Flight` — where an event is on its way to a callback;
* `Served.bystander` — what the other threads do with the events that the post has pushed.
-/

namespace PlatIF.Ioc

variable {abi : Abi} {s s' s₀ : State abi} {p t u v : Tid} {a : Act abi} {i j g n : ℕ} {d e : EvtDesc abi}
  {f : PostFrame abi} {r : TosResult} {rest : List (Frame abi)} {maxSuberNum : ULong abi} {clients : ℕ}
  {o : Option Options} {ok : State abi → Tid × Act abi → Prop}

/-! ### Quiescent states -/

/-- The thread has nothing in hand: no event, no callback and no replay. -/
def Base.rests : Base abi → Bool
  | .async _ _ (.call _) | .async _ _ (.inCb _) | .async _ _ (.replay _) | .async _ _ (.drained _ _) => false
  | _ => true

/-- No call and no callback runs, and no event is queued or cached. -/
structure State.Quiet (s : State abi) : Prop where
  running : s.halted = none
  threads : ∀ u, u < s.nextTid → (s.frames u).isEmpty = true ∧ (s.base u).rests = true
  slots : ∀ i, i < s.ctx.maxSuberNum.toNat →
    (s.suber i).evtQueue.isEmpty = true ∧ (s.suber i).evtCached.pending = 0

instance (s : State abi) : Decidable s.Quiet :=
  decidable_of_iff (s.halted = none ∧
    (∀ u, u < s.nextTid → (s.frames u).isEmpty = true ∧ (s.base u).rests = true) ∧
    ∀ i, i < s.ctx.maxSuberNum.toNat → (s.suber i).evtQueue.isEmpty = true ∧ (s.suber i).evtCached.pending = 0)
    ⟨fun h => ⟨h.1, h.2.1, h.2.2⟩, fun h => ⟨h.running, h.threads, h.slots⟩⟩

/-- The subscription in slot `i`: its callback, its private pointer and its identifiers. -/
def State.subscription (s : State abi) (i : ℕ) : Option EvtSubArgs :=
  if (s.suber i).occupied ∧ (s.suber i).args.pEvtIDs ≠ none then some (s.suber i).args else none

/-- The same live subscriptions, slot by slot. -/
def SameLive (s₁ s₂ : State abi) : Prop :=
  ∀ i, i < s₁.ctx.maxSuberNum.toNat → s₁.subscription i = s₂.subscription i

/-! ### A watched run -/

/-- A callback that was called: of which slot, through which pointers, and with which event. -/
structure Called (abi : Abi) where
  suberIdx : ℕ
  cbProcEvtF : Ptr
  pCbPriv : Ptr
  pEvtDesc : EvtDesc abi
  deriving DecidableEq

def CbFrame.called (c : CbFrame abi) : Called abi := ⟨c.suberIdx, c.cbProcEvtF, c.pCbPriv, c.pEvtDesc⟩

/-- A run, with the callbacks it has made in order and the result of the call that is watched. -/
structure PostRun (abi : Abi) where
  state : State abi
  calls : List (Called abi)
  result : Option TosResult

def PostRun.start (s : State abi) : PostRun abi := ⟨s, [], none⟩

/-- The callback that a step of `u` from `s` to `s'` has called. -/
def newCall (s s' : State abi) (u : Tid) : List (Called abi) :=
  if (s.frames u).length < (s'.frames u).length then ((s'.topCb u).map CbFrame.called).toList else []

/-- The result with which a call of `p` has returned in the step from `s` to `s'`. -/
def newResult (s s' : State abi) (p : Tid) : Option TosResult :=
  if (s'.frames p).length < (s.frames p).length then
    match s'.log.getLast? with
    | some (.ret _ r) => some r
    | _ => none
  else none

/-- The run after a step of `t` to `s'`. -/
def PostRun.after (p : Tid) (x : PostRun abi) (t : Tid) (s' : State abi) : PostRun abi where
  state := s'
  calls := x.calls ++ newCall x.state s' t
  result := x.result.or (newResult x.state s' p)

/-- A step of any thread, with the call of `p` watched. -/
def PostRun.next (p : Tid) (x : PostRun abi) (y : Tid × Act abi) : Option (PostRun abi) :=
  (Ioc.next x.state y).map (x.after p y.1)

/-- Callbacks only answer: nobody calls the API, no callback writes to its descriptor, and every callback returns what
`ans` says. -/
def PostRun.answers (ans : Called abi → TosResult) (x : PostRun abi) (y : Tid × Act abi) : Prop :=
  match y.2 with
  | .call _ | .write _ => False
  | .ret r => ∀ c, x.state.topCb y.1 = some c → r = ans c.called
  | _ => True

/-- From the quiescent state `s` a call of `postEVT` by `p` can return `r` and cause the callbacks `calls`, in this
order, by the time that everything is quiescent again.  The callbacks only answer: they make no call of the API and do
not write to the descriptor. -/
def Outcome (s : State abi) (p : Tid) (d : EvtDesc abi) (o : Option Options) (ans : Called abi → TosResult)
    (r : TosResult) (calls : List (Called abi)) : Prop :=
  ∃ s' x, Ioc.next s (p, .call (.postEVT d o)) = some s' ∧
    Runs.ReachUnder (PostRun.next p) (PostRun.answers ans) (.start s') x ∧
      x.state.Quiet ∧ x.result = some r ∧ x.calls = calls

/-! ### What a post is to do -/

/-- The slots below `n` whose subscription lists the event. -/
def State.matching (s : State abi) (d : EvtDesc abi) (n : ℕ) : List ℕ :=
  (List.range n).filter fun i => (s.suber i).args.lists d

/-- The call of the callback in slot `i`. -/
def State.calledAt (s : State abi) (d : EvtDesc abi) (i : ℕ) : Called abi :=
  ⟨i, (s.suber i).args.cbProcEvtF, (s.suber i).args.pCbPriv, d⟩

/-- A post with these options is delivered SYNC. -/
def State.syncs (s : State abi) (o : Option Options) : Bool := isSyncMode o || s.ctx.isSyncMode

/-- What the post finds at slot `i`. -/
def State.visitAt (s : State abi) (d : EvtDesc abi) (o : Option Options) (ans : Called abi → TosResult) (i : ℕ) :
    ℕ × Visit :=
  (i, if s.syncs o then .callback (ans (s.calledAt d i)) else .queue true)

/-- Thread `p` can obtain the context mutex. -/
def State.lockable (s : State abi) (p : Tid) : Bool := (RecMutex.tryLock s.ctx.mutex p).isSome

/-- What a post from a quiescent state returns, and the callbacks it causes; `none` when it waits for ever. -/
def State.postOutcome (s : State abi) (p : Tid) (d : EvtDesc abi) (o : Option Options)
    (ans : Called abi → TosResult) : Option (TosResult × List (Called abi)) :=
  if s.lockable p then
    if s.ctx.isAlloced then
      some (fanOutResult ((s.matching d s.ctx.maxSuberNum.toNat).map (s.visitAt d o ans)),
        (s.matching d s.ctx.maxSuberNum.toNat).map (s.calledAt d))
    else some (.notFound, [])
  else if isNonBlock o || isTimeout o then some (.timeout, []) else none

theorem State.mem_matching : i ∈ s.matching d n ↔ i < n ∧ (s.suber i).args.lists d = true := by
  rw [State.matching, List.mem_filter, List.mem_range]

@[simp] theorem State.matching_zero : s.matching d 0 = [] := rfl

theorem State.matching_succ_of_lists (h : (s.suber n).args.lists d = true) :
    s.matching d (n + 1) = s.matching d n ++ [n] := by
  rw [State.matching, List.range_succ, List.filter_append]
  simp [State.matching, h]

theorem State.matching_succ_of_not (h : (s.suber n).args.lists d = false) :
    s.matching d (n + 1) = s.matching d n := by
  rw [State.matching, List.range_succ, List.filter_append]
  simp [State.matching, h]

theorem State.matching_nodup (s : State abi) (d : EvtDesc abi) (n : ℕ) : (s.matching d n).Nodup :=
  List.nodup_range.filter _

/-! ### Events on their way -/

/-- Thread `u` has event `e` of slot `i` in its hand. -/
def State.Holds (s : State abi) (u : Tid) (i : ℕ) (e : EvtDesc abi) : Prop := ∃ g, s.base u = .async i g (.call e)

/-- Whether the event `d` is on its way to the callback in slot `i`, and where it is. -/
inductive Flight (s : State abi) (d : EvtDesc abi) (i : ℕ) : Bool → Prop
  | landed (hq : (s.suber i).evtQueue.contents = []) (hh : ∀ u e, ¬ s.Holds u i e) : Flight s d i false
  | queued {v : Tid} (hq : (s.suber i).evtQueue.contents = [d]) (hx : (s.suber i).asyncThreadID = some v)
      (hh : ∀ u e, ¬ s.Holds u i e) : Flight s d i true
  | inHand {u : Tid} (hq : (s.suber i).evtQueue.contents = []) (hu : s.Holds u i d)
      (hh : ∀ v e, s.Holds v i e → v = u) : Flight s d i true

/-- The step leaves the queues, the threads of the slots and the events in hand as they are. -/
structure Calm (s s' : State abi) : Prop where
  queue : ∀ i, (s'.suber i).evtQueue = (s.suber i).evtQueue
  thread : ∀ i, (s'.suber i).asyncThreadID = (s.suber i).asyncThreadID
  holds : ∀ u i e, s'.Holds u i e ↔ s.Holds u i e

theorem Flight.congr {b : Bool} (h : Flight s d i b) (hq' : (s'.suber i).evtQueue = (s.suber i).evtQueue)
    (hx' : (s'.suber i).asyncThreadID = (s.suber i).asyncThreadID)
    (hh' : ∀ u e, s'.Holds u i e ↔ s.Holds u i e) : Flight s' d i b := by
  cases h with
  | landed hq hno => exact .landed (by rw [hq', hq]) fun u e he => hno u e ((hh' u e).mp he)
  | queued hq hx hno => exact .queued (by rw [hq', hq]) (by rw [hx', hx]) fun u e he => hno u e ((hh' u e).mp he)
  | inHand hq hu hone => exact .inHand (by rw [hq', hq]) ((hh' _ _).mpr hu) fun v e he => hone v e ((hh' v e).mp he)

theorem Flight.calm {b : Bool} (h : Flight s d i b) (hc : Calm s s') : Flight s' d i b :=
  h.congr (hc.queue i) (hc.thread i) fun u e => hc.holds u i e

/-! ### The other threads -/

/-- What holds of the threads and the slots while the post of `p` is the only call; it was made in `s₀`. -/
structure Alone (s₀ s : State abi) (p : Tid) : Prop where
  poster : s.base p = .client
  frames : ∀ u, u ≠ p → s.frames u = [] ∨ ∃ c, s.frames u = [.cb c]
  drained : ∀ u i g e r, s.base u ≠ .async i g (.drained e r)
  cached : ∀ i, i < s.ctx.maxSuberNum.toNat → (s.suber i).evtCached.pending = 0
  args : ∀ i, (s.suber i).args = (s₀.suber i).args
  isAlloced : s.ctx.isAlloced = s₀.ctx.isAlloced

theorem Alone.calledAt (h : Alone s₀ s p) : s.calledAt d i = s₀.calledAt d i := by
  rw [State.calledAt, h.args, State.calledAt]

/-- What a step of another thread does. -/
inductive BystanderStep (s s' : State abi) (t : Tid) : Prop
  | moved {b : Base abi} (hc : s'.ctx = s.ctx) (hf : s'.frames = s.frames) (hr : (s.base t).rests = true)
      (hr' : b.rests = true) (hb' : s'.base = Function.update s.base t b)
  | took {i g : ℕ} {pc : AsyncPc abi}
      (hc : s'.ctx = s.ctx.setSuber i { s.suber i with evtQueue := (s.suber i).evtQueue.pop })
      (hf : s'.frames = s.frames) (hb : s.base t = .async i g pc) (hpc : pc = .top ∨ pc = .woken)
      (he : (s.suber i).evtQueue.isEmpty = false)
      (hb' : s'.base = Function.update s.base t (.async i g (.call (s.suber i).evtQueue.front)))
  | called {i g : ℕ} {e : EvtDesc abi} {c : CbFrame abi} (hc : s'.ctx = s.ctx) (hf : s.frames t = [])
      (hf' : s'.frames = Function.update s.frames t [.cb c]) (hcall : c.called = s.calledAt e i)
      (hb : s.base t = .async i g (.call e)) (hb' : s'.base = Function.update s.base t (.async i g (.inCb e)))
  | returned {i g : ℕ} {e : EvtDesc abi} {c : CbFrame abi} (hc : s'.ctx = s.ctx) (hf : s.frames t = [.cb c])
      (hf' : s'.frames = Function.update s.frames t []) (hb : s.base t = .async i g (.inCb e))
      (hb' : s'.base = Function.update s.base t (.async i g .drain))

/-- A thread that rests has no event in hand. -/
theorem State.not_holds_of_rests (h : (s.base u).rests = true) : ¬ s.Holds u i e := by
  rintro ⟨g, hb⟩
  simp [hb, Base.rests] at h

theorem Trans.bystander (hA : Alone s₀ s p) (hlt : ∀ u i, s.RunsOn u i → i < s.ctx.maxSuberNum.toNat) (ht : t ≠ p)
    (hapi : ∀ api, a ≠ .call api) (h : Trans s t a s') (hh' : s'.halted = none) : BystanderStep s s' t := by
  have hfr := hA.frames t ht
  have hno : ∀ {f rest}, s.frames t = f :: rest → f.isApi = true → False := fun hf hapi => by
    rcases hfr with h | ⟨c, h⟩
    · simp [h] at hf
    · rw [h] at hf
      cases hf
      simp [Frame.isApi] at hapi
  cases h
  case call api _ => exact absurd rfl (hapi api)
  case cbRetPost hf _ | cbWrite hf _ _ =>
    rcases hfr with h | ⟨c, h⟩ <;> simp [h] at hf
  case cbRetAsync hf hb => exact .returned rfl hf rfl hb rfl
  case asyncStart hb => exact .moved rfl rfl (by simp [hb, Base.rests]) rfl rfl
  case asyncExit hb hp _ _ _ => exact .moved rfl rfl (by rcases hp with rfl | rfl <;> simp [hb, Base.rests]) rfl rfl
  case asyncWait hb hp _ _ _ => exact .moved rfl rfl (by rcases hp with rfl | rfl <;> simp [hb, Base.rests]) rfl rfl
  case asyncTake hb hp _ he => exact .took rfl rfl hb hp he rfl
  case asyncWake hb => exact .moved rfl rfl (by simp [hb, Base.rests]) rfl rfl
  case asyncCall hf hb _ => exact .called rfl hf rfl rfl hb rfl
  case asyncDrain hb _ => exact .moved rfl rfl (by simp [hb, Base.rests]) rfl rfl
  case asyncReplay i g _ hb hc =>
    rw [hA.cached i (hlt t i ⟨g, _, hb⟩)] at hc
    exact absurd hc (lt_irrefl 0)
  case asyncTop hb _ => exact .moved rfl rfl (by simp [hb, Base.rests]) rfl rfl
  case asyncRetire hb | asyncRedo hb _ _ => exact (hA.drained _ _ _ _ _ hb).elim
  case halt | haltPush | haltRetire => simp at hh'
  -- the other steps are those of a call
  all_goals exact (hno ‹_› rfl).elim

/-- The step leaves the subscriptions and the caches as they are. -/
structure KeepsSubs (s s' : State abi) : Prop where
  slot : ∀ i, (s'.suber i).args = (s.suber i).args ∧ (s'.suber i).evtCached = (s.suber i).evtCached
  isAlloced : s'.ctx.isAlloced = s.ctx.isAlloced
  maxSuberNum : s'.ctx.maxSuberNum = s.ctx.maxSuberNum

theorem KeepsSubs.of_ctx (hc : s'.ctx = s.ctx) : KeepsSubs s s' :=
  ⟨fun i => by rw [State.suber, hc]; exact ⟨rfl, rfl⟩, by rw [hc], by rw [hc]⟩

theorem KeepsSubs.of_setSuber {x : Suber abi} (hc : s'.ctx = s.ctx.setSuber i x) (ha : x.args = (s.suber i).args)
    (hx : x.evtCached = (s.suber i).evtCached) : KeepsSubs s s' := by
  refine ⟨fun j => ?_, by rw [hc]; rfl, by rw [hc]; rfl⟩
  by_cases hj : j = i
  · subst hj
    simpa [State.suber, hc] using And.intro ha hx
  · simp [State.suber, hc, hj]

theorem Alone.next (hA : Alone s₀ s p) (hk : KeepsSubs s s') (hp : s'.base p = s.base p)
    (hf : ∀ u, u ≠ p → s'.frames u = [] ∨ ∃ c, s'.frames u = [.cb c])
    (hd : ∀ u i g e r, s'.base u = .async i g (.drained e r) → s.base u = s'.base u) : Alone s₀ s' p where
  poster := hp.trans hA.poster
  frames := hf
  drained u i g e r hb := hA.drained u i g e r ((hd u i g e r hb).trans hb)
  cached i hi := by
    rw [(hk.slot i).2]
    exact hA.cached i (hk.maxSuberNum ▸ hi)
  args i := (hk.slot i).1.trans (hA.args i)
  isAlloced := hk.isAlloced.trans hA.isAlloced

theorem Alone.bystander (hA : Alone s₀ s p) (ht : t ≠ p) (h : BystanderStep s s' t) : Alone s₀ s' p := by
  have hne : ∀ {b}, s'.base = Function.update s.base t b → s'.base p = s.base p := fun hb' => by
    rw [hb', Function.update_of_ne ht.symm]
  have hd : ∀ {b}, s'.base = Function.update s.base t b → (∀ i g e r, b ≠ .async i g (.drained e r)) →
      ∀ u i g e r, s'.base u = .async i g (.drained e r) → s.base u = s'.base u := fun {b} hb' hb u i g e r hu => by
    by_cases hut : u = t
    · rw [hb', hut, Function.update_self] at hu
      exact absurd hu (hb i g e r)
    · rw [hb', Function.update_of_ne hut]
  have hfr : ∀ {fs}, s'.frames = Function.update s.frames t fs → (fs = [] ∨ ∃ c, fs = [.cb c]) →
      ∀ u, u ≠ p → s'.frames u = [] ∨ ∃ c, s'.frames u = [.cb c] := fun {fs} hf' hfs u hu => by
    by_cases hut : u = t
    · rwa [hf', hut, Function.update_self]
    · rw [hf', Function.update_of_ne hut]
      exact hA.frames u hu
  cases h with
  | moved hc hf hr hr' hb' =>
    refine hA.next (.of_ctx hc) (hne hb') (fun u hu => hf ▸ hA.frames u hu) (hd hb' ?_)
    rintro i g e r rfl
    simp [Base.rests] at hr'
  | took hc hf _ _ _ hb' =>
    exact hA.next (.of_setSuber hc rfl rfl) (hne hb') (fun u hu => hf ▸ hA.frames u hu) (hd hb' (by simp))
  | called hc hf hf' hcall hb hb' =>
    exact hA.next (.of_ctx hc) (hne hb') (hfr hf' (.inr ⟨_, rfl⟩)) (hd hb' (by simp))
  | returned hc hf hf' hb hb' => exact hA.next (.of_ctx hc) (hne hb') (hfr hf' (.inl rfl)) (hd hb' (by simp))

/-- An ordinary thread stays one. -/
theorem Trans.base_client (hT : ThreadInv s) (h : Trans s t a s') (hb : s.base u = .client) : s'.base u = .client := by
  cases h.base_next hT u with
  | same h => exact h.trans hb
  | moved h | ended h => simp [hb] at h
  | created hn =>
    have hgone := (hT.fresh u hn.ge).1
    simp [hb] at hgone

/-- A step of the poster leaves the others alone. -/
theorem Alone.poster_step (hT : ThreadInv s) (hA : Alone s₀ s p) (h : Trans s p a s') (hk : KeepsSubs s s') :
    Alone s₀ s' p := by
  have hp := (h.base_client hT hA.poster).trans hA.poster.symm
  refine hA.next hk hp (fun u hu => ?_) fun u i g e r hu => ?_
  · rw [h.frames_ne hu]
    exact hA.frames u hu
  · by_cases hup : u = p
    · rw [hup, hp]
    · cases h.base_ne hup with
      | same h => exact h.symm
      | created _ _ _ _ h => simp [h] at hu
      | woken _ h => simp [h] at hu

/-- A step of the poster puts no event into anybody's hand, and takes none out of it. -/
theorem Alone.poster_holds (hT : ThreadInv s) (hA : Alone s₀ s p) (h : Trans s p a s') :
    s'.Holds u i e ↔ s.Holds u i e := by
  unfold State.Holds
  by_cases hup : u = p
  · rw [hup, hA.poster, h.base_client hT hA.poster]
  · cases h.base_ne hup with
    | same h => rw [h]
    | created hn _ _ _ h => simp [h, (hT.fresh u hn.ge).1]
    | woken h h' => simp [h, h']

/-! ### What the callbacks have done -/

/-- The callbacks of the slots `done` were called and those of the slots `due` are still to come: together they are the
subscriptions below `n` that list the event, and the event is on its way to those that are due. -/
structure Served (s₀ s : State abi) (N : ℕ) (d : EvtDesc abi) (sync : Bool) (n : ℕ) (calls : List (Called abi))
    (due : List ℕ) : Prop where
  called : ∃ done : List ℕ, calls = done.map (s₀.calledAt d) ∧ (done ++ due).Perm (s₀.matching d n) ∧
    (sync = true → done = s₀.matching d n)
  flight : ∀ i, i < N → Flight s d i (decide (i ∈ due))

section

variable {N : ℕ} {sync : Bool} {calls : List (Called abi)} {due : List ℕ}

theorem Served.due_sublist (h : Served s₀ s N d sync n calls due) : due.Nodup ∧ ∀ i ∈ due, i ∈ s₀.matching d n := by
  obtain ⟨done, -, hp, -⟩ := h.called
  refine ⟨?_, fun i hi => hp.subset (List.mem_append_right _ hi)⟩
  exact (hp.nodup_iff.mpr (s₀.matching_nodup d n)).of_append_right

theorem Served.not_due (h : Served s₀ s N d sync n calls due) : n ∉ due := fun hn =>
  lt_irrefl n (State.mem_matching.mp (h.due_sublist.2 n hn)).1

/-- Nothing is on its way to the slot whose turn comes next. -/
theorem Served.landed (h : Served s₀ s N d sync n calls due) (hn : n < N) :
    (s.suber n).evtQueue.contents = [] ∧ ∀ u e, ¬ s.Holds u n e := by
  have hfl := h.flight n hn
  rw [decide_eq_false h.not_due] at hfl
  cases hfl with
  | landed hq hno => exact ⟨hq, hno⟩

theorem Served.hasRoom (h : Served s₀ s N d sync n calls due) (hn : n < N) :
    (s.suber n).evtQueue.hasRoom = true := by
  have h0 := (WrapRing.isEmpty_iff_pending _).mp ((WrapRing.isEmpty_iff_contents _).mpr (h.landed hn).1)
  exact (WrapRing.hasRoom_iff _).mpr (by rw [h0]; decide)

theorem Served.calm (h : Served s₀ s N d sync n calls due) (hc : Calm s s') : Served s₀ s' N d sync n calls due :=
  ⟨h.called, fun i hi => (h.flight i hi).calm hc⟩

/-- A SYNC post leaves nothing to the async threads. -/
theorem Served.due_nil (h : Served s₀ s N d true n calls due) : due = [] := by
  obtain ⟨done, -, hp, hs⟩ := h.called
  have hlen := hp.length_eq
  rw [hs rfl, List.length_append] at hlen
  exact List.length_eq_zero_iff.mp (by omega)

theorem Served.skip (h : Served s₀ s N d sync n calls due) (hl : (s₀.suber n).args.lists d = false) :
    Served s₀ s N d sync (n + 1) calls due := by
  refine ⟨?_, h.flight⟩
  rw [State.matching_succ_of_not hl]
  exact h.called

/-- The SYNC callback of the next slot is called. -/
theorem Served.syncCalled (h : Served s₀ s N d true n calls due) (hl : (s₀.suber n).args.lists d = true) :
    Served s₀ s N d true (n + 1) (calls ++ [s₀.calledAt d n]) due := by
  obtain rfl := h.due_nil
  obtain ⟨done, hcalls, hp, hs⟩ := h.called
  refine ⟨⟨done ++ [n], by simp [hcalls], ?_, fun _ => ?_⟩, h.flight⟩
  · rw [State.matching_succ_of_lists hl, List.append_nil]
    exact (List.append_nil done ▸ hp).append_right [n]
  · rw [State.matching_succ_of_lists hl, hs rfl]

/-- The event is pushed into the next slot. -/
theorem Served.push (h : Served s₀ s N d false n calls due) (hl : (s₀.suber n).args.lists d = true)
    (hself : Flight s' d n true) (hother : ∀ i, i ≠ n → i < N → ∀ b, Flight s d i b → Flight s' d i b) :
    Served s₀ s' N d false (n + 1) calls (due ++ [n]) := by
  obtain ⟨done, hcalls, hp, -⟩ := h.called
  refine ⟨⟨done, hcalls, ?_, by simp⟩, fun i hi => ?_⟩
  · rw [State.matching_succ_of_lists hl, ← List.append_assoc]
    exact hp.append_right [n]
  · by_cases hin : i = n
    · simpa [hin] using hself
    · simpa [hin] using hother i hin hi _ (h.flight i hi)

/-- The event is handed to the callback of slot `i`. -/
theorem Served.deliver (h : Served s₀ s N d sync n calls due) (hi : i ∈ due) (hself : Flight s' d i false)
    (hother : ∀ j, j ≠ i → j < N → ∀ b, Flight s d j b → Flight s' d j b) :
    Served s₀ s' N d sync n (calls ++ [s₀.calledAt d i]) (due.erase i) := by
  have hnd := h.due_sublist.1
  cases sync with
  | true => simp [h.due_nil] at hi
  | false =>
    obtain ⟨done, hcalls, hp, -⟩ := h.called
    refine ⟨⟨done ++ [i], by simp [hcalls], ?_, by simp⟩, fun j hj => ?_⟩
    · rw [List.append_assoc]
      exact ((List.perm_cons_erase hi).symm.append_left done).trans hp
    · by_cases hji : j = i
      · simpa [hji, hnd.not_mem_erase] using hself
      · simpa [hnd.mem_erase_iff, hji] using hother j hji hj _ (h.flight j hj)

end

theorem newCall_eq_nil (h : (s'.frames t).length ≤ (s.frames t).length) : newCall s s' t = [] :=
  if_neg (Nat.not_lt.mpr h)

theorem newCall_cb {c : CbFrame abi} {fs : List (Frame abi)} (hf' : s'.frames t = .cb c :: fs)
    (hlen : (s.frames t).length ≤ fs.length) : newCall s s' t = [c.called] := by
  rw [newCall, hf', if_pos (by rw [List.length_cons]; omega), State.topCb, hf']
  rfl

/-- Only thread `t` moves, and it has nothing in hand before and after. -/
theorem Calm.of_rests {b : Base abi} (hc : s'.ctx = s.ctx) (hb' : s'.base = Function.update s.base t b)
    (hh : ∀ i e, ¬ s.Holds t i e) (hh' : ∀ i e, ¬ s'.Holds t i e) : Calm s s' := by
  refine ⟨fun i => by rw [State.suber, hc], fun i => by rw [State.suber, hc], fun u i e => ?_⟩
  by_cases hu : u = t
  · rw [hu]
    exact iff_of_false (hh' i e) (hh i e)
  · rw [State.Holds, hb', Function.update_of_ne hu, State.Holds]

/-- An event that another slot is concerned with. -/
theorem Flight.other {b : Bool} {pc pc' : AsyncPc abi} (h : Flight s d j b) (hx : s'.suber j = s.suber j)
    (hb : s.base t = .async i g pc) (hb' : s'.base = Function.update s.base t (.async i g pc')) (hj : j ≠ i) :
    Flight s' d j b := by
  refine h.congr (by rw [hx]) (by rw [hx]) fun u e => ?_
  by_cases hu : u = t
  · rw [State.Holds, State.Holds, hb', hu, Function.update_self, hb]
    simp [hj.symm]
  · rw [State.Holds, hb', Function.update_of_ne hu, State.Holds]

theorem Served.bystander {N : ℕ} {sync : Bool} {calls : List (Called abi)} {due : List ℕ} (hA : Alone s₀ s p)
    (h : Served s₀ s N d sync n calls due) (hlt : ∀ u i, s.RunsOn u i → i < N) (hb : BystanderStep s s' t) :
    ∃ due', Served s₀ s' N d sync n (calls ++ newCall s s' t) due' := by
  cases hb with
  | @moved b hc hf hr hr' hb' =>
    rw [newCall_eq_nil (by rw [hf]), List.append_nil]
    refine ⟨due, h.calm (.of_rests hc hb' (fun i e => State.not_holds_of_rests hr) fun i e => ?_)⟩
    exact State.not_holds_of_rests (by rw [hb', Function.update_self, hr'])
  | @took i g pc hc hf hb hpc he hb' =>
    rw [newCall_eq_nil (by rw [hf]), List.append_nil]
    refine ⟨due, h.called, fun j hj => ?_⟩
    by_cases hji : j = i
    · subst hji
      have hne : (s.suber j).evtQueue.pending ≠ 0 := fun h0 => by
        simp [(WrapRing.isEmpty_iff_pending _).mpr h0] at he
      have hcons := WrapRing.contents_pop _ hne
      have hfl := h.flight j hj
      generalize decide (j ∈ due) = b at hfl ⊢
      cases hfl with
      | landed hq | inHand hq => simp [hq] at hcons
      | queued hq hx hno =>
        rw [hq, List.cons.injEq] at hcons
        refine .inHand (u := t) (by simpa [State.suber, hc] using hcons.2.symm) ⟨g, ?_⟩ fun v e hv => ?_
        · rw [hb', Function.update_self, hcons.1]
        · by_contra hvt
          obtain ⟨k, hv⟩ := hv
          rw [hb', Function.update_of_ne hvt] at hv
          exact hno v e ⟨k, hv⟩
    · exact (h.flight j hj).other (by simp [State.suber, hc, hji]) hb hb' hji
  | @called i g e c hc hf hf' hcall hb hb' =>
    have hcalls : newCall s s' t = [c.called] := newCall_cb (by rw [hf', Function.update_self]) (by simp [hf])
    have hi := hlt t i ⟨g, _, hb⟩
    have hold : s.Holds t i e := ⟨g, hb⟩
    -- the event is on its way to the slot, and it is in the hand of this thread
    have hfl := h.flight i hi
    generalize hdue : decide (i ∈ due) = b at hfl
    cases hfl with
    | landed _ hno | queued _ _ hno => exact absurd hold (hno t e)
    | @inHand u hq hu hone =>
      obtain rfl := hone t e hold
      obtain ⟨g', hu⟩ := hu
      rw [hb] at hu
      cases hu
      refine ⟨due.erase i, ?_⟩
      rw [hcalls, hcall, hA.calledAt]
      refine h.deliver (of_decide_eq_true hdue) (.landed (by rw [State.suber, hc, hq]) ?_) fun j hj _ b hfl => ?_
      · rintro v e ⟨k, hv⟩
        by_cases hvt : v = t
        · rw [hb', hvt, Function.update_self] at hv
          cases hv
        · rw [hb', Function.update_of_ne hvt] at hv
          exact hvt (hone v e ⟨k, hv⟩)
      · exact hfl.other (by rw [State.suber, hc]) hb hb' hj
  | @returned i g e c hc hf hf' hb hb' =>
    rw [newCall_eq_nil (by simp [hf, hf']), List.append_nil]
    refine ⟨due, h.calm (.of_rests hc hb' ?_ ?_)⟩
    · rintro j e' ⟨k, hk⟩
      rw [hb] at hk
      cases hk
    · rintro j e' ⟨k, hk⟩
      rw [hb', Function.update_self] at hk
      cases hk

end PlatIF.Ioc
