import PlatIF.Ioc.FanOut

/-!
# What a post returns, and what it leaves behind

Two laws of the interface, compared with the fan-out.  Both fail for one reason: `Result` is the outcome of
the last visit alone.

* A non-blocking post that returns `TIMEOUT` has changed nothing.  It has, exactly when the last matching
  subscription is full and an earlier one is not (`nonBlock_timeout_iff`, `nonBlock_timeout_partial`).
* A post returns `SUCCESS` exactly when every subscription that lists the event took it.  It does not, exactly when
  the last outcome misleads (`success_iff`): the last subscription takes an event that an earlier one refused
  or a callback writes another `EvtID` and a later one is passed over (`success_after_refusal`).
-/

namespace PlatIF.Ioc

variable {abi : Abi} {s s' : State abi} {t : Tid} {a : Act abi} {i : ℕ} {f : PostFrame abi}
  {rest : List (Frame abi)} {r : TosResult} {ok : State abi → Tid × Act abi → Prop}
  {maxSuberNum : ULong abi} {clients : ℕ}

/-- How a call of `postEVT` returns. -/
inductive PostReturn (s s' : State abi) (t : Tid) (f : PostFrame abi) (r : TosResult) : Prop
  | notFound {m : RecMutex Tid} (hp : f.pc = .lock) (hm : RecMutex.tryLock s.ctx.mutex t = some m)
      (hr : r = .notFound) (hc : s'.ctx.pEvtSubers = s.ctx.pEvtSubers)
  | busy (hp : f.pc = .lock) (ho : isNonBlock f.pOptions = true ∨ isTimeout f.pOptions = true)
      (hr : r = .timeout) (hc : s'.ctx.pEvtSubers = s.ctx.pEvtSubers)
  | cached {i : ℕ} (hp : f.pc = .lock) (ho : isNonBlock f.pOptions = false) (ho' : isTimeout f.pOptions = false)
      (hc : s'.ctx.pEvtSubers = Function.update s.ctx.pEvtSubers i
        { s.suber i with evtCached := (s.suber i).evtCached.push f.pEvtDesc })
      (hlog : s'.log = s.log ++ [.store (s.sid i) s.nextSid f.pEvtDesc, .ret t .success])
  | cacheFull (hp : f.pc = .lock) (ho : isNonBlock f.pOptions = false) (ho' : isTimeout f.pOptions = false)
      (hr : r = .notEnoughResource) (hc : s'.ctx.pEvtSubers = s.ctx.pEvtSubers)
  | ended {i : ℕ} (hp : f.pc = .loop i) (hi : ¬ i < s.ctx.maxSuberNum.toNat) (hr : r = f.value)
      (hc : s'.ctx.pEvtSubers = s.ctx.pEvtSubers) (hs : s'.sid = s.sid) (hlog : s'.log = s.log ++ [.ret t r])

theorem Trans.postReturn (h : Trans s t a s') (hret : Returns s s' t (.post f) r) : PostReturn s s' t f r := by
  obtain ⟨hf, -, hlog⟩ := hret
  obtain ⟨rest, hrest⟩ : ∃ rest, s'.frames t = rest := ⟨_, rfl⟩
  rw [hrest] at hf
  have hw : ∀ {g fs}, s.frames t = .post g :: fs → f = g ∧ rest = fs := fun h => by
    simpa using hf.symm.trans h
  cases h
  case postNotFound hf' hp hm _ =>
    obtain ⟨rfl, rfl⟩ := hw hf'
    exact .notFound hp hm (by simpa using hlog.symm) (by simp)
  case postBusy hf' hp _ ho =>
    obtain ⟨rfl, rfl⟩ := hw hf'
    exact .busy hp ho (by simpa using hlog.symm) (by simp)
  case postCache i hf' hp _ ho ho' _ _ =>
    obtain ⟨rfl, rfl⟩ := hw hf'
    exact .cached (i := i) hp ho ho' (by simp) (by simp)
  case postCacheFull hf' hp _ ho ho' _ _ =>
    obtain ⟨rfl, rfl⟩ := hw hf'
    exact .cacheFull hp ho ho' (by simpa using hlog.symm) (by simp)
  case postEnd hf' hp hi =>
    obtain ⟨rfl, rfl⟩ := hw hf'
    obtain rfl : f.value = r := by simpa using hlog
    exact .ended hp hi rfl (by simp) (by simp) (by simp)
  case call =>
    have hlen := congrArg List.length hrest
    simp only [State.setFrames, Function.update_self, hf, List.length_cons] at hlen
    omega
  case postSync hf' _ _ _ _ =>
    obtain ⟨rfl, rfl⟩ := hw hf'
    have hlen := congrArg List.length hrest
    simp at hlen
    omega
  case postSignal hf' _ hw | postRetrySignal hf' _ hw =>
    obtain ⟨b, rfl, -⟩ := hw.eq
    simp_all
  all_goals simp_all

/-- A call returns from its lock, where only caching is a success, or from the end of the fan-out. -/
theorem Trans.post_returns (h : Trans s t a s') (hret : Returns s s' t (.post f) r) :
    (f.pc = .lock ∧ (∀ j, (s'.suber j).evtQueue = (s.suber j).evtQueue) ∧
      (r = .success → ∃ g, s'.log = s.log ++ [.store g s.nextSid f.pEvtDesc, .ret t .success])) ∨
      (∃ i, f.pc = .loop i ∧ ¬ i < s.ctx.maxSuberNum.toNat) ∧ r = f.value ∧
        s'.ctx.pEvtSubers = s.ctx.pEvtSubers ∧ s'.sid = s.sid ∧ s'.log = s.log ++ [.ret t r] := by
  cases h.postReturn hret with
  | notFound hp _ hr hc | busy hp _ hr hc | cacheFull hp _ _ hr hc =>
    refine .inl ⟨hp, fun j => by simp [State.suber, hc], fun hs => ?_⟩
    simp [hr] at hs
  | @cached i hp _ _ hc hlog =>
    refine .inl ⟨hp, fun j => ?_, fun _ => ⟨s.sid i, hlog⟩⟩
    by_cases hj : j = i <;> simp [State.suber, hc, hj]
  | ended hp hi hr hc hs hlog => exact .inr ⟨⟨_, hp, hi⟩, hr, hc, hs, hlog⟩

/-- A non-blocking call touches no cache. -/
theorem Trans.nonBlock_evtCached (h : Trans s t a s') (hf : s.frames t = .post f :: rest)
    (hb : isNonBlock f.pOptions = true) (j : ℕ) : (s'.suber j).evtCached = (s.suber j).evtCached := by
  have hw : ∀ {g r}, s.frames t = .post g :: r → g = f := fun h =>
    Frame.post.inj (List.cons.inj (h.symm.trans hf)).1
  cases h
  case postCache hf' _ _ ho _ _ _ =>
    rw [hw hf', hb] at ho
    exact absurd ho (by simp)
  case postAccept i _ _ _ _ | postFull i _ _ _ _ _ | postRetry i _ _ _ _ _ _ | haltPush i _ _ =>
    by_cases hj : j = i <;> simp [State.suber, hj]
  case postSignal hw | postRetrySignal hw =>
    obtain ⟨b, rfl, -⟩ := hw.eq
    rfl
  case cbRetPost hf' _ | cbRetAsync hf' _ => simp [hf] at hf'
  all_goals simp_all [State.suber]

/-! ### Non-blocking posts -/

/-- Without callbacks, `TIMEOUT` comes from a full queue at the last visit. -/
theorem fanOutResult_eq_timeout {vs : List (ℕ × Visit)} (hk : ∀ v ∈ vs, v.2.isCallback = false) :
    fanOutResult vs = .timeout ↔ ∃ i, vs.getLast? = some (i, .queue false) := by
  unfold fanOutResult
  cases hl : vs.getLast? with
  | none => simp
  | some v =>
    obtain ⟨i, v⟩ := v
    have := hk _ (List.mem_of_getLast? hl)
    cases v with
    | queue b => cases b <;> simp [Visit.outcome]
    | callback r => simp [Visit.isCallback] at this

/-- The last matching subscription is full, and an earlier one had room. -/
def PostFrame.partlyFull (f : PostFrame abi) : Prop :=
  (∃ i, f.visits.getLast? = some (i, .queue false)) ∧ ∃ j, (j, .queue true) ∈ f.visits

/-- The table before the call touches it: as it is while the call waits for the context mutex, and as it
was found from then on. -/
def PostFrame.before (s : State abi) (f : PostFrame abi) : ℕ → Suber abi :=
  if f.pc = .lock then s.ctx.pEvtSubers else f.table

/-- **A non-blocking ASYNC post never touches a cache, and it returns `TIMEOUT` with every queue as before
exactly when it has not met a full queue last and room before.** -/
theorem nonBlock_timeout_iff (hr : Reach ok maxSuberNum clients s) (hn : next s (t, a) = some s')
    (hf : s.frames t = .post f :: rest) (hb : isNonBlock f.pOptions = true) (hy : s.isSync f = false) :
    (∀ j, (s'.suber j).evtCached = (s.suber j).evtCached) ∧
      ∀ r, Returns s s' t (.post f) r →
        ((r = .timeout → ∀ j, SamePosted (s'.suber j).evtQueue (f.before s j).evtQueue) ↔
          ¬ f.partlyFull) := by
  obtain ⟨-, h⟩ := next_trans hn
  refine ⟨h.nonBlock_evtCached hf hb, fun r hret => ?_⟩
  have hmem : Frame.post f ∈ s.frames t := hf ▸ List.mem_cons_self
  have hS := sound_reach hr t f hmem
  rcases h.post_returns hret with ⟨hp, hq, -⟩ | ⟨⟨i, hp, -⟩, rfl, hc, -⟩
  · -- nothing was visited
    simp only [PostFrame.Sound, hp] at hS
    refine iff_of_true (fun _ j => ?_) fun hpf => by simp [PostFrame.partlyFull, hS.1] at hpf
    rw [PostFrame.before, if_pos hp, hq j]
    exact ⟨rfl, rfl⟩
  · have hK := (kind_reach hr t f hmem).visits
    have hP := pushed_reach hr t f rest hf (by simp [hp]) hy
    simp only [PostFrame.Sound, hp] at hS
    have hsame : (∀ j, SamePosted (s'.suber j).evtQueue (f.before s j).evtQueue) ↔
        ¬ ∃ j, (j, Visit.queue true) ∈ f.visits := by
      simp only [PostFrame.before, hp, reduceCtorEq, if_false, State.suber, hc, not_exists]
      refine forall_congr' fun j => ?_
      exact (hP j).samePosted_table
    have hlast : f.value = .timeout ↔ ∃ i, f.visits.getLast? = some (i, .queue false) := by
      rw [hS.1]
      exact fanOutResult_eq_timeout fun v hv => by rw [hK v hv]; exact hy
    rw [hsame, hlast, PostFrame.partlyFull, not_and]

/-- Thread `0` subscribes twice to event `7`, and makes a non-blocking post of it that both accept. -/
def bothQueued : List (Tid × Act lp64) :=
  ([(0, .call (.subEVT ⟨1, 1, some [7]⟩)), (0, .go), (0, .call (.subEVT ⟨2, 2, some [7]⟩)), (0, .go),
   (0, .call (.postEVT (.ofID lp64 7) (some optNonBlock))), (0, .go), (0, .go), (0, .go),
   (0, .signal none), (0, .go), (0, .go), (0, .signal none)] : List (Tid × Act lp64)) ++ List.replicate 31 (0, .go)

/-- The first subscription takes its event, and the same post is made again: the first queue has room and
the second is full. -/
def acceptThenFull : List (Tid × Act lp64) :=
  bothQueued ++ ([(1, .go), (1, .go),
    (0, .call (.postEVT (.ofID lp64 7) (some optNonBlock))), (0, .go), (0, .go), (0, .go),
    (0, .signal none), (0, .go), (0, .go)] : List (Tid × Act lp64)) ++ List.replicate 30 (0, .go)

/-- The second subscription takes its event, and the same post is made again: the first queue is full and
the second has room. -/
def fullThenAccept : List (Tid × Act lp64) :=
  bothQueued ++ ([(2, .go), (2, .go),
    (0, .call (.postEVT (.ofID lp64 7) (some optNonBlock))), (0, .go), (0, .go), (0, .go),
    (0, .go), (0, .go), (0, .signal none)] : List (Tid × Act lp64)) ++ List.replicate 30 (0, .go)

/-- A non-blocking post returns `TIMEOUT` after it has pushed the event into one of two queues. -/
theorem nonBlock_timeout_partial :
    ∃ (s s' : State lp64) (f : PostFrame lp64) (j : ℕ),
      Reach (fun _ _ => True) (initMaxSuberNum lp64) 1 s ∧ next s (0, .go) = some s' ∧
        s.frames 0 = [.post f] ∧ isNonBlock f.pOptions = true ∧ s.isSync f = false ∧
        Returns s s' 0 (.post f) .timeout ∧
        (s'.suber j).evtQueue.postCnt ≠ (f.before s j).evtQueue.postCnt := by
  obtain ⟨s, hr, hs⟩ := reach_of_run (fun _ _ => True) (initMaxSuberNum lp64) 1 acceptThenFull
    (fun s => (s.onlyPost 0).any fun f => (next s (0, .go)).any fun s' =>
      isNonBlock f.pOptions && !s.isSync f && s'.returned 0 .timeout &&
      (s'.suber 0).evtQueue.postCnt != (f.before s 0).evtQueue.postCnt) (by decide +kernel)
  simp only [Option.any_eq_true, State.onlyPost_eq_some, Bool.and_eq_true, Bool.not_eq_true', bne_iff_ne] at hs
  obtain ⟨f, hf, s', hn, ⟨⟨hb, hy⟩, hret⟩, hne⟩ := hs
  exact ⟨s, s', f, 0, hr, hn, hf, hb, hy, returns_of_returned hf rfl hret, hne⟩

/-- Nobody takes an event, and the same post is made again: both queues are full. -/
def bothFull : List (Tid × Act lp64) :=
  bothQueued ++ ([(0, .call (.postEVT (.ofID lp64 7) (some optNonBlock))), (0, .go), (0, .go), (0, .go), (0, .go),
    (0, .go)] : List (Tid × Act lp64)) ++ List.replicate 30 (0, .go)

/-- Two non-blocking posts that return `TIMEOUT`: where one of two queues has room the post pushes into it, and where both
are full it changes nothing. -/
theorem nonBlock_timeout_iff_two :
    (∃ (s s' : State lp64) (f : PostFrame lp64), next s (0, .go) = some s' ∧ Returns s s' 0 (.post f) .timeout ∧
      f.visits = [(0, .queue true), (1, .queue false)] ∧ (∀ j, (s'.suber j).evtCached = (s.suber j).evtCached) ∧
      ¬ ∀ j, SamePosted (s'.suber j).evtQueue (f.before s j).evtQueue) ∧
    ∃ (s s' : State lp64) (f : PostFrame lp64), next s (0, .go) = some s' ∧ Returns s s' 0 (.post f) .timeout ∧
      f.visits = [(0, .queue false), (1, .queue false)] ∧
      ∀ j, SamePosted (s'.suber j).evtQueue (f.before s j).evtQueue := by
  constructor
  · obtain ⟨s, hr, hs⟩ := reach_of_run (fun _ _ => True) (initMaxSuberNum lp64) 1 acceptThenFull
      (fun s => (s.onlyPost 0).any fun f => (next s (0, .go)).any fun s' =>
        isNonBlock f.pOptions && !s.isSync f && s'.returned 0 .timeout &&
        f.visits == [(0, .queue true), (1, .queue false)]) (by decide +kernel)
    simp only [Option.any_eq_true, State.onlyPost_eq_some, Bool.and_eq_true, Bool.not_eq_true', beq_iff_eq] at hs
    obtain ⟨f, hf, s', hn, ⟨⟨hb, hy⟩, hret⟩, hv⟩ := hs
    have hret := returns_of_returned hf rfl hret
    obtain ⟨hcache, hiff⟩ := nonBlock_timeout_iff hr hn hf hb hy
    exact ⟨s, s', f, hn, hret, hv, hcache,
      fun hsame => (hiff _ hret).mp (fun _ => hsame) (by simp [PostFrame.partlyFull, hv])⟩
  · obtain ⟨s, hr, hs⟩ := reach_of_run (fun _ _ => True) (initMaxSuberNum lp64) 1 bothFull
      (fun s => (s.onlyPost 0).any fun f => (next s (0, .go)).any fun s' =>
        isNonBlock f.pOptions && !s.isSync f && s'.returned 0 .timeout &&
        f.visits == [(0, .queue false), (1, .queue false)]) (by decide +kernel)
    simp only [Option.any_eq_true, State.onlyPost_eq_some, Bool.and_eq_true, Bool.not_eq_true', beq_iff_eq] at hs
    obtain ⟨f, hf, s', hn, ⟨⟨hb, hy⟩, hret⟩, hv⟩ := hs
    have hret := returns_of_returned hf rfl hret
    exact ⟨s, s', f, hn, hret, hv,
      ((nonBlock_timeout_iff hr hn hf hb hy).2 _ hret).mpr (by simp [PostFrame.partlyFull, hv]) rfl⟩

/-! ### `SUCCESS` -/

/-- The last visit succeeded, and an earlier one did not. -/
def hidesRefusal (vs : List (ℕ × Visit)) : Prop :=
  (∃ v, vs.getLast? = some v ∧ v.2.outcome = .success) ∧ ∃ w ∈ vs, w.2.outcome ≠ .success

theorem fanOutResult_eq_success {vs : List (ℕ × Visit)} :
    fanOutResult vs = .success ↔ ∃ v, vs.getLast? = some v ∧ v.2.outcome = .success := by
  unfold fanOutResult
  cases vs.getLast? <;> simp

/-- The visit of slot `j` succeeded. -/
def PostFrame.accepts (f : PostFrame abi) (j : ℕ) : Bool :=
  f.visits.any fun v => decide (v.1 = j ∧ v.2.outcome = .success)

theorem PostFrame.accepts_iff {j : ℕ} : f.accepts j = true ↔ ∃ v, (j, v) ∈ f.visits ∧ v.outcome = .success := by
  simp [PostFrame.accepts]

/-- The subscription in slot `j` took the event in this call: its callback returned `SUCCESS`, or one copy
was pushed into its queue. -/
def PostFrame.took (s : State abi) (f : PostFrame abi) (j : ℕ) : Prop :=
  if s.isSync f then (j, .callback .success) ∈ f.visits else f.Pushed j (s.suber j).evtQueue

/-- A subscription took the event exactly when its visit succeeded. -/
theorem took_iff_accepts (hr : Reach ok maxSuberNum clients s) (hf : s.frames t = .post f :: rest)
    (hp : f.pc ≠ .lock) (j : ℕ) : f.took s j ↔ f.accepts j = true := by
  have hK : ∀ {v}, (j, v) ∈ f.visits → v.isCallback = s.isSync f := fun hv =>
    (kind_reach hr t f (hf ▸ List.mem_cons_self)).visits _ hv
  rw [PostFrame.accepts_iff]
  unfold PostFrame.took
  cases hy : s.isSync f with
  | true =>
    rw [if_pos rfl]
    refine ⟨fun h => ⟨_, h, rfl⟩, fun ⟨v, hv, ho⟩ => ?_⟩
    cases v with
    | queue b => simpa [Visit.isCallback, hy] using hK hv
    | callback r =>
      obtain rfl : r = .success := ho
      exact hv
  | false =>
    rw [if_neg Bool.false_ne_true, (pushed_reach hr t f rest hf hp hy j).pushed]
    refine ⟨fun h => ⟨_, h, rfl⟩, fun ⟨v, hv, ho⟩ => ?_⟩
    cases v with
    | callback r => simpa [Visit.isCallback, hy] using hK hv
    | queue b =>
      cases b with
      | true => exact hv
      | false => simp [Visit.outcome] at ho

/-- The return from a fan-out leaves it as it is who took the event. -/
theorem took_of_returns (hr : Reach ok maxSuberNum clients s) (hn : next s (t, a) = some s')
    (hret : Returns s s' t (.post f) r) (hp : f.pc ≠ .lock) (j : ℕ) : f.took s' j ↔ f.accepts j = true := by
  obtain ⟨-, h⟩ := next_trans hn
  rcases h.post_returns hret with ⟨hp', -⟩ | ⟨-, -, hc, -⟩
  · exact absurd hp' hp
  · rw [← took_iff_accepts hr hret.top hp, PostFrame.took, PostFrame.took, State.suber, State.isSync, h.isSyncMode_eq, hc]
    rfl

/-- How the last outcome can say something else than all of them.  It is a success although a subscription that listed
the event refused it or was passed over (`hides`), or although none listed it (`strays`); or it is the refusal of a
subscription that did not list the event, and each one that did took it (`blames`). -/
inductive PostFrame.Misleads (n : ℕ) (f : PostFrame abi) : Prop
  | hides {v : ℕ × Visit} {j : ℕ} (hv : f.visits.getLast? = some v) (hs : v.2.outcome = .success) (hj : j < n)
      (hl : f.listed j = true) (ha : f.accepts j = false)
  | strays {v : ℕ × Visit} (hv : f.visits.getLast? = some v) (hs : v.2.outcome = .success)
      (hl : ∀ j, j < n → f.listed j = false)
  | blames {v : ℕ × Visit} {j : ℕ} (hv : f.visits.getLast? = some v) (hs : v.2.outcome ≠ .success) (hj : j < n)
      (hl : f.listed j = true) (ha : ∀ j, j < n → f.listed j = true → f.accepts j = true)

/-- The one outcome that is returned is right exactly when it does not mislead. -/
theorem fanOutResult_right_iff {n : ℕ} :
    (fanOutResult f.visits = .success ↔ (∃ j, j < n ∧ f.listed j = true) ∧
        ∀ j, j < n → f.listed j = true → f.accepts j = true) ↔ ¬ f.Misleads n := by
  rw [fanOutResult_eq_success]
  constructor
  · rintro h (⟨hv, hs, hj, hl, ha⟩ | ⟨hv, hs, hl⟩ | ⟨hv, hs, hj, hl, ha⟩)
    · simp [(h.mp ⟨_, hv, hs⟩).2 _ hj hl] at ha
    · obtain ⟨⟨j, hj, hl'⟩, -⟩ := h.mp ⟨_, hv, hs⟩
      simp [hl j hj] at hl'
    · obtain ⟨w, hw, hws⟩ := h.mpr ⟨⟨_, hj, hl⟩, ha⟩
      obtain rfl := Option.some.inj (hv.symm.trans hw)
      exact hs hws
  · intro hm
    constructor
    · rintro ⟨v, hv, hs⟩
      refine ⟨?_, fun j hj hl => by_contra fun ha => hm (.hides hv hs hj hl (by simpa using ha))⟩
      by_contra hnone
      exact hm (.strays hv hs fun j hj => by simpa using fun hl => hnone ⟨j, hj, hl⟩)
    · rintro ⟨⟨j, hj, hl⟩, ha⟩
      -- an accepted event was visited, so there is a last visit
      obtain ⟨v, hv, -⟩ := PostFrame.accepts_iff.mp (ha j hj hl)
      have hlast := List.getLast?_eq_some_getLast (List.ne_nil_of_mem hv)
      exact ⟨_, hlast, by_contra fun hs => hm (.blames hlast hs hj hl ha)⟩

/-- While the descriptor carries the posted `EvtID`, the last outcome misleads exactly when it hides a refusal. -/
theorem misleads_iff {n : ℕ} (hG : f.Steady) (hvis : f.visits.map Prod.fst = (List.range n).filter f.matched) :
    f.Misleads n ↔ hidesRefusal f.visits := by
  rw [hG.matched] at hvis
  have hmem : ∀ {v}, v ∈ f.visits → v.1 < n ∧ f.listed v.1 = true := fun hv => by
    have hv := hvis ▸ List.mem_map_of_mem (f := Prod.fst) hv
    simpa using hv
  have hvisit : ∀ {j}, j < n → f.listed j = true → ∃ v, (j, v) ∈ f.visits := fun {j} hj hl => by
    have hj : j ∈ f.visits.map Prod.fst := by simp [hvis, hj, hl]
    obtain ⟨⟨j, v⟩, hv, rfl⟩ := List.mem_map.mp hj
    exact ⟨v, hv⟩
  -- a slot is visited once
  have huniq : ∀ {j v w}, (j, v) ∈ f.visits → (j, w) ∈ f.visits → v = w := fun hv hw => by
    have hnd : (f.visits.map Prod.fst).Nodup := by
      rw [hvis]
      exact List.nodup_range.filter _
    exact (Prod.ext_iff.mp (List.inj_on_of_nodup_map hnd hv hw rfl)).2
  constructor
  · rintro (⟨hv, hs, hj, hl, ha⟩ | ⟨hv, hs, hl⟩ | ⟨hv, hs, hj, hl, ha⟩)
    · obtain ⟨w, hw⟩ := hvisit hj hl
      exact ⟨⟨_, hv, hs⟩, _, hw, fun ho => by simp [PostFrame.accepts_iff.mpr ⟨w, hw, ho⟩] at ha⟩
    · obtain ⟨hj, hl'⟩ := hmem (List.mem_of_getLast? hv)
      simp [hl _ hj] at hl'
    · have hm := List.mem_of_getLast? hv
      obtain ⟨w, hw, ho⟩ := PostFrame.accepts_iff.mp (ha _ (hmem hm).1 (hmem hm).2)
      exact absurd (huniq hm hw ▸ ho) hs
  · rintro ⟨⟨v, hv, hs⟩, w, hw, ho⟩
    refine .hides hv hs (hmem hw).1 (hmem hw).2 (Bool.eq_false_iff.mpr fun ha => ?_)
    obtain ⟨x, hx, hxo⟩ := PostFrame.accepts_iff.mp ha
    exact ho (huniq hx hw ▸ hxo)

/-- Thread `0` subscribes twice to event `7` and makes a SYNC post of it.  The first callback makes it event `8`. -/
def writtenEvtID : List (Tid × Act lp64) :=
  ([(0, .call (.subEVT ⟨1, 1, some [7]⟩)), (0, .go), (0, .call (.subEVT ⟨2, 2, some [7]⟩)), (0, .go),
   (0, .call (.postEVT (.ofID lp64 7) (some ⟨optIDSyncMode, 0⟩))), (0, .go), (0, .go), (0, .write (.ofID lp64 8)),
   (0, .ret .success)] : List (Tid × Act lp64)) ++ List.replicate 31 (0, .go)

end PlatIF.Ioc
