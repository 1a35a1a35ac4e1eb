import PlatIF.Ioc.Quiescent

/-!
# The run of a post from a quiescent state

The steps of the post itself: it enters, goes from slot to slot, calls the callbacks of a SYNC post, and returns.  No step
of it depends on what the history has left in the slots.

* `Underway` — what holds all along the run, one lemma for each place where the post can stand;
* `postInv_run` — it does hold;
* `Outcome.eq` — so every outcome is the one that the subscriptions decide.
-/

namespace PlatIF.Ioc

variable {abi : Abi} {s s' s₀ : State abi} {p t u : Tid} {a : Act abi} {i n : ℕ} {d e : EvtDesc abi}
  {f : PostFrame abi} {r : TosResult} {maxSuberNum : ULong abi} {clients : ℕ} {o : Option Options}
  {ok : State abi → Tid × Act abi → Prop}

/-! ### Where the post stands -/

/-- The frame of the post, as the slots it has passed leave it. -/
structure PostFrame.Fanning (s₀ : State abi) (N : ℕ) (d : EvtDesc abi) (o : Option Options)
    (ans : Called abi → TosResult) (f : PostFrame abi) : Prop where
  pEvtDesc : f.pEvtDesc = d
  pOptions : f.pOptions = o
  isReplay : f.isReplay = false
  le : f.pc.index ≤ N
  visits : f.visits = (s₀.matching d f.pc.index).map (s₀.visitAt d o ans)

/-- Where the post of `p` stands that was made in `s₀`: the slots below the index have had their turn. -/
inductive Stands (s₀ : State abi) (x : PostRun abi) (p : Tid) (N : ℕ) (d : EvtDesc abi) (o : Option Options)
    (ans : Called abi → TosResult) : ℕ → Prop
  | entering {f : PostFrame abi} (hf : x.state.frames p = [.post f]) (hp : f.pc = .lock)
      (hF : f.Fanning s₀ N d o ans) (hm : x.state.ctx.mutex = s₀.ctx.mutex) (hr : x.result = none) :
      Stands s₀ x p N d o ans 0
  | going {f : PostFrame abi} (hf : x.state.frames p = [.post f]) (hp : f.pc ≠ .lock) (hp' : ∀ i, f.pc ≠ .retry i)
      (hF : f.Fanning s₀ N d o ans) (hl : s₀.lockable p = true) (ha : s₀.ctx.isAlloced = true)
      (hr : x.result = none) : Stands s₀ x p N d o ans f.pc.index
  | calling {f : PostFrame abi} {c : CbFrame abi} {i : ℕ} (hf : x.state.frames p = [.cb c, .post f])
      (hp : f.pc = .inCb i) (hi : i < N) (hF : f.Fanning s₀ N d o ans) (hl : s₀.lockable p = true)
      (ha : s₀.ctx.isAlloced = true) (hy : s₀.syncs o = true) (hls : (s₀.suber i).args.lists d = true)
      (hc : c.called = s₀.calledAt d i) (hr : x.result = none) : Stands s₀ x p N d o ans (i + 1)
  | back {r : TosResult} {n : ℕ} (hf : x.state.frames p = []) (hn : n ≤ N) (hr : x.result = some r)
      (ho : s₀.postOutcome p d o ans = some (r, (s₀.matching d n).map (s₀.calledAt d))) : Stands s₀ x p N d o ans n

theorem newResult_eq_none (h : (s.frames p).length ≤ (s'.frames p).length) : newResult s s' p = none :=
  if_neg (Nat.not_lt.mpr h)

theorem newResult_ret {l : List (Obs abi)} {f : Frame abi} (hf : s.frames p = f :: s'.frames p)
    (hl : s'.log = l ++ [.ret p r]) : newResult s s' p = some r := by
  rw [newResult, hf, if_pos (by simp), hl]
  simp

section

variable {x y : PostRun abi} {N : ℕ} {ans : Called abi → TosResult} {due : List ℕ}

/-- What holds all along the run of the post of `p` that was made in `s₀`, while the process runs. -/
structure Underway (s₀ : State abi) (x : PostRun abi) (p : Tid) (N : ℕ) (d : EvtDesc abi) (o : Option Options)
    (ans : Called abi → TosResult) : Prop where
  alone : Alone s₀ x.state p
  served : ∃ n due, Stands s₀ x p N d o ans n ∧ Served s₀ x.state N d (s₀.syncs o) n x.calls due

/-- The slots stay as they are in a step of the poster. -/
theorem Alone.poster_calm (hT : ThreadInv s) (hA : Alone s₀ s p) (h : Trans s p a s')
    (hc : s'.ctx.pEvtSubers = s.ctx.pEvtSubers) : Calm s s' :=
  ⟨fun i => by rw [State.suber, hc], fun i => by rw [State.suber, hc], fun u i e => hA.poster_holds hT h⟩

theorem KeepsSubs.of_mutex {m : RecMutex Tid} (hc : s'.ctx = { s.ctx with mutex := m }) : KeepsSubs s s' :=
  ⟨fun i => by rw [State.suber, hc]; exact ⟨rfl, rfl⟩, by rw [hc], by rw [hc]⟩

theorem State.postOutcome_busy (hl : s.lockable p = false) (ho : isNonBlock o = true ∨ isTimeout o = true) :
    s.postOutcome p d o ans = some (.timeout, []) := by
  rw [State.postOutcome, hl, if_neg (by simp), if_pos (by simpa using ho)]

theorem State.postOutcome_notFound (hl : s.lockable p = true) (ha : s.ctx.isAlloced = false) :
    s.postOutcome p d o ans = some (.notFound, []) := by
  rw [State.postOutcome, hl, if_pos rfl, ha, if_neg (by simp)]

theorem State.postOutcome_fanOut (hl : s.lockable p = true) (ha : s.ctx.isAlloced = true) :
    s.postOutcome p d o ans = some (fanOutResult ((s.matching d s.ctx.maxSuberNum.toNat).map (s.visitAt d o ans)),
      (s.matching d s.ctx.maxSuberNum.toNat).map (s.calledAt d)) := by
  rw [State.postOutcome, hl, if_pos rfl, ha, if_pos rfl]

/-- The post returns. -/
theorem Underway.returned (hT : ThreadInv x.state) (hA : Alone s₀ x.state p)
    (hsv : Served s₀ x.state N d (s₀.syncs o) n x.calls due) (hf : x.state.frames p = [.post f])
    (hr : x.result = none) (hn : n ≤ N)
    (ho : s₀.postOutcome p d o ans = some (r, (s₀.matching d n).map (s₀.calledAt d)))
    (h : Trans x.state p a s') {m : RecMutex Tid} (hs : s' = (x.state.setMutex m).retPost p f [] r) :
    Underway s₀ (x.after p p s') p N d o ans := by
  have hf' : s'.frames p = [] := by simp [hs]
  have hc : s'.ctx = { x.state.ctx with mutex := m } := by simp [hs]
  refine ⟨hA.poster_step hT h (.of_mutex hc), n, due, .back hf' hn ?_ ho, ?_⟩
  · show x.result.or (newResult x.state s' p) = some r
    rw [hr, newResult_ret (f := .post f) (l := x.state.log) (r := r) (by rw [hf, hf']) (by simp [hs])]
    rfl
  · show Served s₀ s' N d (s₀.syncs o) n (x.calls ++ newCall x.state s' p) due
    rw [newCall_eq_nil (by simp [hf']), List.append_nil]
    exact hsv.calm (hA.poster_calm hT h (by rw [hc]))

/-- The post goes on, with its own frame on top, and leaves the slots as they are. -/
theorem Underway.went {q : PostFrame abi} (hT : ThreadInv x.state) (hA : Alone s₀ x.state p) {m : ℕ}
    (hsv : Served s₀ x.state N d (s₀.syncs o) n x.calls due) (hf : x.state.frames p = [.post f])
    (h : Trans x.state p a s') (hk : KeepsSubs x.state s') (hc : s'.ctx.pEvtSubers = x.state.ctx.pEvtSubers)
    (hf' : s'.frames p = [.post q])
    (hst : ∀ y : PostRun abi, y.state = s' → y.result = x.result → Stands s₀ y p N d o ans m)
    (hm : ∀ {s : State abi}, Served s₀ s N d (s₀.syncs o) n x.calls due →
      Served s₀ s N d (s₀.syncs o) m x.calls due) : Underway s₀ (x.after p p s') p N d o ans := by
  refine ⟨hA.poster_step hT h hk, m, due, hst _ rfl ?_, ?_⟩
  · show x.result.or (newResult x.state s' p) = x.result
    rw [newResult_eq_none (by simp [hf, hf']), Option.or_none]
  · show Served s₀ s' N d (s₀.syncs o) m (x.calls ++ newCall x.state s' p) due
    rw [newCall_eq_nil (by simp [hf, hf']), List.append_nil]
    exact hm (hsv.calm (hA.poster_calm hT h hc))

theorem Underway.entering (hT : ThreadInv x.state) (hA : Alone s₀ x.state p)
    (hsv : Served s₀ x.state N d (s₀.syncs o) 0 x.calls due) (hf : x.state.frames p = [.post f]) (hp : f.pc = .lock)
    (hF : f.Fanning s₀ N d o ans) (hm : x.state.ctx.mutex = s₀.ctx.mutex) (hr : x.result = none)
    (hapi : ∀ api, a ≠ .call api) (h : Trans x.state p a s') (hh' : s'.halted = none) :
    Underway s₀ (x.after p p s') p N d o ans := by
  have hw : ∀ {q fs}, x.state.frames p = .post q :: fs → f = q ∧ fs = [] := fun h => by simpa using hf.symm.trans h
  have hno : ∀ {i}, x.state.tls p = some i → False := fun ht => by
    obtain ⟨g, pc, hb⟩ := hT.async_of_tls (by simp [hf]) ht
    simp [hA.poster] at hb
  have hlock : ∀ {m}, RecMutex.tryLock x.state.ctx.mutex p = m → s₀.lockable p = m.isSome := fun h => by
    rw [State.lockable, ← hm, h]
  have htr := h
  cases h
  case call api _ => exact absurd rfl (hapi api)
  case postLock m hf' _ hl ha =>
    obtain ⟨rfl, rfl⟩ := hw hf'
    refine .went (q := { f with pc := .loop 0, table := _ }) hT hA hsv hf htr (.of_mutex rfl) rfl (by simp; rfl)
      (fun y hy hres => ?_) id
    exact .going (f := { f with pc := .loop 0, table := x.state.ctx.pEvtSubers }) (by simp [hy]) (by simp) (by simp)
      ⟨hF.pEvtDesc, hF.pOptions, hF.isReplay, Nat.zero_le _, by simpa [hp, PostPc.index] using hF.visits⟩
      (hlock hl) (hA.isAlloced ▸ ha) (hres.trans hr)
  case postNotFound m hf' _ hl ha =>
    obtain ⟨rfl, rfl⟩ := hw hf'
    exact .returned hT hA hsv hf hr (Nat.zero_le _) (State.postOutcome_notFound (hlock hl) (hA.isAlloced ▸ ha)) htr rfl
  case postBusy hf' _ hl ho =>
    obtain ⟨rfl, rfl⟩ := hw hf'
    exact .returned hT hA hsv hf hr (Nat.zero_le _) (State.postOutcome_busy (hlock hl) (hF.pOptions ▸ ho)) htr rfl
  case postCache ht _ | postCacheFull ht _ => exact (hno ht).elim
  case halt | haltPush | haltRetire => simp at hh'
  all_goals
    exfalso
    clear htr hw hno hlock
    simp_all

/-- The post pushes its event into the slot it stands at. -/
theorem Underway.accepted (hT : ThreadInv x.state)
    (hA : Alone s₀ x.state p) (hsv : Served s₀ x.state N d (s₀.syncs o) i x.calls due)
    (hf : x.state.frames p = [.post f]) (hp : f.pc = .push i) (hF : f.Fanning s₀ N d o ans)
    (hl : s₀.lockable p = true) (ha : s₀.ctx.isAlloced = true) (hres : x.result = none)
    (hy : s₀.syncs o = false) (hls : (s₀.suber i).args.lists d = true) (hi : i < N) (h : Trans x.state p a s')
    (hc : s'.ctx.pEvtSubers = Function.update x.state.ctx.pEvtSubers i { x.state.suber i with
      asyncThreadID := some ((x.state.suber i).asyncThreadID.getD x.state.nextTid),
      evtQueue := (x.state.suber i).evtQueue.push d })
    (hk : KeepsSubs x.state s')
    (hf' : s'.frames p = [.post { f with
      pc := .signal i, result := .success, visits := f.visits ++ [(i, .queue true)] }]) :
    Underway s₀ (x.after p p s') p N d o ans := by
  have hpow : evtQueueMax < 2 ^ abi.ulongBits := lt_of_lt_of_le (by decide) abi.pow_le
  rw [hy] at hsv
  refine ⟨hA.poster_step hT h hk, i + 1, due ++ [i], ?stands, ?served⟩
  case stands =>
    refine Stands.going (x := x.after p p s') hf' (by simp) (by simp)
      ⟨hF.pEvtDesc, hF.pOptions, hF.isReplay, hi, ?_⟩ hl ha ?_
    · have hv := hF.visits
      simp only [hp, PostPc.index] at hv
      simp [PostPc.index, State.matching_succ_of_lists hls, hv, State.visitAt, hy]
    · show x.result.or (newResult x.state s' p) = none
      rw [newResult_eq_none (by simp [hf, hf']), hres]
      rfl
  case served =>
    show Served s₀ s' N d (s₀.syncs o) (i + 1) (x.calls ++ newCall x.state s' p) (due ++ [i])
    rw [newCall_eq_nil (by simp [hf, hf']), List.append_nil, hy]
    obtain ⟨hq, hno⟩ := hsv.landed hi
    refine hsv.push hls ?_ fun j hj _ b hfl => ?_
    · refine .queued (v := (x.state.suber i).asyncThreadID.getD x.state.nextTid) ?_ (by simp [State.suber, hc])
        fun u e hu => hno u e ((hA.poster_holds hT h).mp hu)
      simp only [State.suber, hc, Function.update_self]
      rw [WrapRing.contents_push (one_dvd _) hpow _ _ ((WrapRing.hasRoom_iff _).mp (hsv.hasRoom hi)), hq,
        List.nil_append]
    · exact hfl.congr (by simp [State.suber, hc, hj]) (by simp [State.suber, hc, hj]) fun u e => hA.poster_holds hT h

/-- The post calls the callback of the slot it stands at. -/
theorem Underway.called (hT : ThreadInv x.state) (hA : Alone s₀ x.state p)
    (hsv : Served s₀ x.state N d (s₀.syncs o) i x.calls due) (hf : x.state.frames p = [.post f])
    (hF : f.Fanning s₀ N d o ans) (hp : f.pc = .loop i) (hl : s₀.lockable p = true) (ha : s₀.ctx.isAlloced = true)
    (hres : x.result = none) (hy : s₀.syncs o = true) (hls : (s₀.suber i).args.lists d = true) (hi : i < N)
    (h : Trans x.state p a s') (hc : s'.ctx = x.state.ctx) {c : CbFrame abi}
    {ds : List (EvtDesc abi)} (hf' : s'.frames p = [.cb c, .post { f with pc := .inCb i, tested := ds }]) (hcall : c.called = s₀.calledAt d i) :
    Underway s₀ (x.after p p s') p N d o ans := by
  have hv := hF.visits
  rw [hp] at hv
  refine ⟨hA.poster_step hT h (.of_ctx hc), i + 1, due, ?stands, ?served⟩
  case stands =>
    refine .calling (x := x.after p p s') (f := { f with pc := .inCb i, tested := ds }) hf' rfl hi
      ⟨hF.pEvtDesc, hF.pOptions, hF.isReplay, hi.le, hv⟩ hl ha hy hls hcall ?_
    show x.result.or (newResult x.state s' p) = none
    rw [newResult_eq_none (by simp [hf, hf']), hres]
    rfl
  case served =>
    show Served s₀ s' N d (s₀.syncs o) (i + 1) (x.calls ++ newCall x.state s' p) due
    rw [newCall_cb hf' (by simp [hf]), hcall]
    rw [hy] at hsv ⊢
    exact (hsv.syncCalled hls).calm (hA.poster_calm hT h (by rw [hc]))

theorem Underway.going (hr : Reach ok maxSuberNum clients x.state) (hN : N = maxSuberNum.toNat)
    (hN₀ : s₀.ctx.maxSuberNum = maxSuberNum) (hy₀ : s₀.ctx.isSyncMode = false)
    (hA : Alone s₀ x.state p) (hsv : Served s₀ x.state N d (s₀.syncs o) f.pc.index x.calls due)
    (hf : x.state.frames p = [.post f]) (hp : f.pc ≠ .lock) (hp' : ∀ i, f.pc ≠ .retry i)
    (hF : f.Fanning s₀ N d o ans) (hl : s₀.lockable p = true) (ha : s₀.ctx.isAlloced = true) (hres : x.result = none)
    (hapi : ∀ api, a ≠ .call api) (h : Trans x.state p a s') (hh' : s'.halted = none) :
    Underway s₀ (x.after p p s') p N d o ans := by
  have hT := threadInv_reach hr
  have hmax : x.state.ctx.maxSuberNum.toNat = N := by rw [maxSuberNum_reach hr, hN]
  have hsync : x.state.isSync f = s₀.syncs o := by
    rw [State.isSync, hF.pOptions, isSyncMode_reach hr, State.syncs, hy₀]
  have hslot : ∀ {i}, f.pc.slot = some i → i < N ∧ (s₀.suber i).args.lists d = true ∧ s₀.syncs o = false := fun hs => by
    have hok := (holderInv_reach hr).post p f [] _ hf hs
    have hls := hok.lists hF.isReplay
    rw [hA.args, hF.pEvtDesc] at hls
    exact ⟨hmax ▸ hok.lt, hls, hsync ▸ hok.async⟩
  have hdesc : x.state.desc p f = d := (State.desc_of_not_replay _ p f hF.isReplay).trans hF.pEvtDesc
  have hw : ∀ {q fs}, x.state.frames p = .post q :: fs → f = q ∧ fs = [] := fun h => by simpa using hf.symm.trans h
  have hgoes : ∀ q : PostFrame abi, q.pc ≠ .lock → (∀ i, q.pc ≠ .retry i) → q.Fanning s₀ N d o ans →
      s'.frames p = [.post q] → ∀ y : PostRun abi, y.state = s' → y.result = x.result →
      Stands s₀ y p N d o ans q.pc.index := fun q hq hq' hF' hf' y hy hr' =>
    .going (hy ▸ hf') hq hq' hF' hl ha (hr'.trans hres)
  have hv := hF.visits
  have hle := hF.le
  have htr := h
  cases h
  case call api _ => exact absurd rfl (hapi api)
  case postSkip i hf' hpc hi hls =>
    obtain ⟨rfl, rfl⟩ := hw hf'
    have hls₀ : (s₀.suber i).args.lists d = false := by rwa [hA.args, hdesc] at hls
    simp only [hpc, PostPc.index] at hsv hv
    refine .went hT hA hsv hf htr (.of_ctx rfl) rfl (by simp; rfl)
      (hgoes { f with pc := .loop (i + 1), tested := f.tested ++ [x.state.desc p f] } (by simp) (by simp)
        ⟨hF.pEvtDesc, hF.pOptions, hF.isReplay, hmax ▸ hi, ?_⟩ (by simp)) fun h => h.skip hls₀
    simp only [PostPc.index, State.matching_succ_of_not hls₀, hv]
  case postSync i hf' hpc hi hls hs =>
    obtain ⟨rfl, rfl⟩ := hw hf'
    have hls₀ : (s₀.suber i).args.lists d = true := by rwa [hA.args, hdesc] at hls
    simp only [hpc, PostPc.index] at hsv hv hle
    rw [hsync] at hs
    refine .called hT hA hsv hf hF hpc hl ha hres hs hls₀ (hmax ▸ hi) htr rfl
      (by simp only [State.setFrames, State.obs, Function.update_self]; rfl) ?_
    rw [← hA.calledAt, ← hdesc]
    rfl
  case postASync i hf' hpc hi hls hs =>
    obtain ⟨rfl, rfl⟩ := hw hf'
    simp only [hpc, PostPc.index] at hsv hv hle
    exact .went hT hA hsv hf htr (.of_ctx rfl) rfl (by simp; rfl)
      (hgoes { f with pc := .push i, tested := f.tested ++ [x.state.desc p f] } (by simp) (by simp)
        ⟨hF.pEvtDesc, hF.pOptions, hF.isReplay, hle, hv⟩ (by simp)) id
  case postEnd i hf' hpc hi =>
    obtain ⟨rfl, rfl⟩ := hw hf'
    simp only [hpc, PostPc.index] at hsv hv hle
    have hV := sound_reach hr p f (by simp [hf])
    simp only [PostFrame.Sound, hpc] at hV
    obtain rfl : i = N := by omega
    refine .returned hT hA hsv hf hres le_rfl ?_ htr rfl
    rw [State.postOutcome_fanOut hl ha, hV.1, hv, hN₀, ← hN]
  case postAccept i hf' hpc _ _ =>
    obtain ⟨rfl, rfl⟩ := hw hf'
    obtain ⟨hi, hls₀, hy⟩ := hslot (by rw [hpc]; rfl)
    simp only [hpc, PostPc.index] at hsv
    refine .accepted hT hA hsv hf hpc hF hl ha hres hy hls₀ hi htr ?_ ?_ (by simp)
    · simp [withThread_suber, hdesc]
    · exact ⟨fun j => by by_cases hj : j = i <;> simp [State.suber, hj], by simp, by simp⟩
  case postFull i hf' hpc _ hroom _ | postRetry i hf' hpc _ hroom _ _ =>
    obtain ⟨rfl, rfl⟩ := hw hf'
    obtain ⟨hi, -, -⟩ := hslot (by rw [hpc]; rfl)
    simp only [hpc, PostPc.index] at hsv
    simp [hsv.hasRoom hi] at hroom
  case postSignal i s₁ hf' hpc hw' =>
    obtain ⟨rfl, rfl⟩ := hw hf'
    simp only [hpc, PostPc.index] at hsv hv hle
    have hc : s₁.ctx = x.state.ctx := by
      obtain ⟨b, rfl, -⟩ := hw'.eq
      rfl
    exact .went hT hA hsv hf htr (.of_ctx hc) (by simp [hc]) (by simp; rfl)
      (hgoes { f with pc := .loop (i + 1), isCbProcEvtFound := true } (by simp) (by simp)
        ⟨hF.pEvtDesc, hF.pOptions, hF.isReplay, hle, hv⟩ (by simp)) id
  case postRetrySignal hf' hpc _ =>
    obtain ⟨rfl, rfl⟩ := hw hf'
    exact absurd hpc (hp' _)
  case halt | haltPush | haltRetire => simp at hh'
  all_goals
    exfalso
    clear htr hw hgoes hslot hdesc hsync hsv hv
    simp_all

/-- The callback that the post has called returns. -/
theorem Underway.calling (hr : Reach ok maxSuberNum clients x.state) (hA : Alone s₀ x.state p)
    (hsv : Served s₀ x.state N d (s₀.syncs o) (i + 1) x.calls due) {c : CbFrame abi}
    (hf : x.state.frames p = [.cb c, .post f]) (hp : f.pc = .inCb i) (hi : i < N) (hF : f.Fanning s₀ N d o ans)
    (hl : s₀.lockable p = true) (ha : s₀.ctx.isAlloced = true) (hy : s₀.syncs o = true)
    (hls : (s₀.suber i).args.lists d = true) (hc : c.called = s₀.calledAt d i) (hres : x.result = none)
    (hok : x.answers ans (p, a)) (h : Trans x.state p a s') (hh' : s'.halted = none) :
    Underway s₀ (x.after p p s') p N d o ans := by
  have hT := threadInv_reach hr
  have hv := hF.visits
  rw [hp] at hv
  have htr := h
  cases h
  case call | cbWrite => exact hok.elim
  case cbRetPost r hf' hp' =>
    have he := hf.symm.trans hf'
    simp only [List.cons.injEq, Frame.cb.injEq, Frame.post.injEq] at he
    obtain ⟨rfl, rfl, rfl⟩ := he
    obtain rfl : i = _ := PostPc.inCb.inj (hp.symm.trans hp')
    have hans : r = ans (s₀.calledAt d i) := hc ▸ hok c (by rw [State.topCb, hf])
    refine ⟨hA.poster_step hT htr (.of_ctx rfl), i + 1, due, ?stands, ?served⟩
    case stands =>
      refine .going (f := { f with pc := .loop (i + 1), result := r, isCbProcEvtFound := true, visits := _ })
        (by simp [PostRun.after]; rfl) (by simp) (by simp) ⟨hF.pEvtDesc, hF.pOptions, hF.isReplay, hi, ?_⟩ hl ha ?_
      · simp only [PostPc.index] at hv ⊢
        simp [State.matching_succ_of_lists hls, hv, State.visitAt, hy, hans]
      · show x.result.or (newResult x.state _ p) = none
        rw [hres, newResult]
        simp [hf]
    case served =>
      show Served s₀ _ N d (s₀.syncs o) (i + 1) (x.calls ++ newCall x.state _ p) due
      rw [newCall_eq_nil (by simp [hf]), List.append_nil]
      exact hsv.calm (hA.poster_calm hT htr rfl)
  case halt | haltPush | haltRetire => simp at hh'
  all_goals
    exfalso
    clear htr hsv hv
    simp_all

/-! ### The run -/

/-- An ordinary thread outside all calls does nothing but call. -/
theorem Trans.client_idle (h : Trans s t a s') (hf : s.frames t = []) (hb : s.base t = .client)
    (hapi : ∀ api, a ≠ .call api) (hh' : s'.halted = none) : False := by
  cases h
  case call api _ => exact hapi api rfl
  case halt | haltPush | haltRetire => simp at hh'
  all_goals simp_all

theorem BystanderStep.mutex (h : BystanderStep s s' t) : s'.ctx.mutex = s.ctx.mutex := by
  cases h with
  | moved hc | called hc | returned hc => rw [hc]
  | took hc => rw [hc, Ctx.setSuber]

theorem Stands.congr (h : Stands s₀ x p N d o ans n) (hf' : y.state.frames p = x.state.frames p)
    (hm' : y.state.ctx.mutex = x.state.ctx.mutex) (hres' : y.result = x.result) : Stands s₀ y p N d o ans n := by
  cases h with
  | entering hf hp hF hm hres => exact .entering (hf'.trans hf) hp hF (hm'.trans hm) (hres'.trans hres)
  | going hf hp hp' hF hl ha hres => exact .going (hf'.trans hf) hp hp' hF hl ha (hres'.trans hres)
  | calling hf hp hi hF hl ha hy hls hc hres =>
    exact .calling (hf'.trans hf) hp hi hF hl ha hy hls hc (hres'.trans hres)
  | back hf hn hres ho => exact .back (hf'.trans hf) hn (hres'.trans hres) ho

/-- What holds all along a run of the post of `p`. -/
structure PostRun.Inv (s₀ : State abi) (p : Tid) (maxSuberNum : ULong abi) (clients : ℕ) (d : EvtDesc abi)
    (o : Option Options) (ans : Called abi → TosResult) (x : PostRun abi) : Prop where
  reach : Reach (fun _ _ => True) maxSuberNum clients x.state
  underway : x.state.halted = none → Underway s₀ x p maxSuberNum.toNat d o ans

theorem PostRun.Inv.next (hI : x.Inv s₀ p maxSuberNum clients d o ans) (hN₀ : s₀.ctx.maxSuberNum = maxSuberNum)
    (hy₀ : s₀.ctx.isSyncMode = false) (hok : x.answers ans (t, a)) (hn : x.next p (t, a) = some y) :
    y.Inv s₀ p maxSuberNum clients d o ans := by
  obtain ⟨s', hs, rfl⟩ := Option.map_eq_some_iff.mp hn
  have hr := hI.reach
  have hT := threadInv_reach hr
  obtain ⟨hh, h⟩ := next_trans hs
  have hapi : ∀ api, a ≠ .call api := by
    rintro api rfl
    exact hok
  refine ⟨hr.tail _ trivial hs, fun hh' => ?_⟩
  obtain ⟨hA, n, due, hst, hsv⟩ := hI.underway hh
  by_cases ht : t = p
  · subst ht
    cases hst with
    | entering hf hp hF hm hres => exact .entering hT hA hsv hf hp hF hm hres hapi h hh'
    | going hf hp hp' hF hl ha hres => exact .going hr rfl hN₀ hy₀ hA hsv hf hp hp' hF hl ha hres hapi h hh'
    | calling hf hp hi hF hl ha hy hls hc hres => exact .calling hr hA hsv hf hp hi hF hl ha hy hls hc hres hok h hh'
    | back hf => exact (h.client_idle hf hA.poster hapi hh').elim
  · have hlt := runsOn_lt_reach hr
    have hb := h.bystander hA (by rwa [maxSuberNum_reach hr]) ht hapi hh'
    obtain ⟨due', hsv'⟩ := hsv.bystander hA hlt hb
    have hf : s'.frames p = x.state.frames p := h.frames_ne (Ne.symm ht)
    refine ⟨hA.bystander ht hb, n, due', hst.congr hf hb.mutex ?_, hsv'⟩
    show x.result.or (newResult x.state s' p) = x.result
    rw [newResult_eq_none (by rw [hf]), Option.or_none]

/-- In a quiescent state nobody has an event in hand. -/
theorem State.Quiet.rests (hq : s.Quiet) (hT : ThreadInv s) (u : Tid) : s.frames u = [] ∧ (s.base u).rests = true := by
  by_cases hu : u < s.nextTid
  · exact ⟨List.isEmpty_iff.mp (hq.threads u hu).1, (hq.threads u hu).2⟩
  · have hb := (hT.fresh u (Nat.not_lt.mp hu)).1
    have hS := hT.stack u
    rw [hb] at hS ⊢
    exact ⟨hS.of_gone, rfl⟩

theorem State.Quiet.contents_nil (hq : s.Quiet) (hi : i < s.ctx.maxSuberNum.toNat) :
    (s.suber i).evtQueue.contents = [] :=
  (WrapRing.isEmpty_iff_contents _).mp (hq.slots i hi).1

/-- The call of the post. -/
theorem next_call {api : Api abi} (hh : s.halted = none) (hf : s.frames p = []) (hb : s.base p = .client) :
    Ioc.next s (p, .call api) = some (s.setFrames p [s.frameOf p api]) := by
  simp [Ioc.next, State.step, hh, hf, hb, State.userStep]

theorem PostRun.inv_start (h₀ : Reach ok maxSuberNum clients s₀) (hq : s₀.Quiet) (hb : s₀.base p = .client)
    (hs : Ioc.next s₀ (p, .call (.postEVT d o)) = some s') :
    (PostRun.start s').Inv s₀ p maxSuberNum clients d o ans := by
  have hT := threadInv_reach h₀
  have hmax := maxSuberNum_reach h₀
  have hrest := fun u => hq.rests hT u
  refine ⟨?_, fun _ => ?_⟩
  · exact (Runs.ReachUnder.mono (fun _ _ _ => trivial) h₀).tail _ trivial hs
  rw [next_call hq.running (hrest p).1 hb, Option.some.injEq] at hs
  subst hs
  refine ⟨⟨hb, fun u hu => .inl ?_, fun u i g e r hb => ?_, fun i hi => (hq.slots i hi).2, fun _ => rfl, rfl⟩, 0, [], ?_, ?_⟩
  · simpa [PostRun.start, hu] using (hrest u).1
  · have hr := (hrest u).2
    rw [show s₀.base u = _ from hb] at hr
    simp [Base.rests] at hr
  · refine .entering (f := ⟨d, o, .lock, .bug, false, false, s₀.depth p, s₀.ctx.pEvtSubers, [], []⟩)
      (by simp [PostRun.start, State.frameOf]) rfl ⟨rfl, rfl, rfl, Nat.zero_le _, rfl⟩ rfl rfl
  · refine ⟨⟨[], rfl, .nil, fun _ => rfl⟩, fun i hi => .landed (hq.contents_nil (hmax ▸ hi)) fun u e => ?_⟩
    exact State.not_holds_of_rests (hrest u).2

/-- **What holds all along a run of the post.** -/
theorem postInv_run (h₀ : Reach ok maxSuberNum clients s₀) (hq : s₀.Quiet) (hb : s₀.base p = .client)
    (hs : Ioc.next s₀ (p, .call (.postEVT d o)) = some s')
    (hx : Runs.ReachUnder (PostRun.next p) (PostRun.answers ans) (.start s') x) :
    x.Inv s₀ p maxSuberNum clients d o ans :=
  hx.invariant (PostRun.inv_start h₀ hq hb hs) fun _ _ _ _ hI hok hn =>
    hI.next (maxSuberNum_reach h₀) (isSyncMode_reach h₀) hok hn

/-- **Every outcome is the one that the subscriptions decide.** -/
theorem Outcome.eq (h₀ : Reach ok maxSuberNum clients s₀) (hq : s₀.Quiet) (hb : s₀.base p = .client)
    {calls : List (Called abi)} (h : Outcome s₀ p d o ans r calls) :
    ∃ L, s₀.postOutcome p d o ans = some (r, L) ∧ calls.Perm L ∧ (s₀.syncs o = true → calls = L) := by
  obtain ⟨s', x, hs, hx, hqx, hres, rfl⟩ := h
  have hI := postInv_run h₀ hq hb hs hx
  have hmax := maxSuberNum_reach hI.reach
  obtain ⟨hA, n, due, hst, hsv⟩ := hI.underway hqx.running
  cases hst with
  | entering _ _ _ _ hr | going _ _ _ _ _ _ hr | calling _ _ _ _ _ _ _ _ _ hr => simp [hres] at hr
  | back hf hn hr ho =>
    obtain rfl := Option.some.inj (hres.symm.trans hr)
    -- everything is quiescent, so nothing is due
    have hdue : due = [] := by
      by_contra hne
      obtain ⟨i, hi⟩ := List.exists_mem_of_ne_nil _ hne
      have hin := (State.mem_matching.mp (hsv.due_sublist.2 i hi)).1
      have hfl := hsv.flight i (hin.trans_le hn)
      rw [decide_eq_true hi] at hfl
      have hnil := hqx.contents_nil (i := i) (by rw [hmax]; exact hin.trans_le hn)
      cases hfl with
      | queued hq => simp [hnil] at hq
      | inHand _ hu => exact State.not_holds_of_rests (hqx.rests (threadInv_reach hI.reach) _).2 hu
    obtain ⟨done, hcalls, hp, hsync⟩ := hsv.called
    rw [hdue, List.append_nil] at hp
    refine ⟨_, ho, ?_, fun hy => ?_⟩
    · rw [hcalls]
      exact hp.map _
    · rw [hcalls, hsync hy]

end

end PlatIF.Ioc
