import PlatIF.Ioc.Barrier
import PlatIF.Ioc.SlotOwner

/-!
# Callbacks of one subscription

A callback is called by the async thread of its subscription, which holds no lock, and by SYNC posts, which hold the
context mutex.  Two SYNC posts exclude one another; a SYNC post and the async thread do not.  When callbacks do not
post, a stack has one callback at most, and a SYNC post that finds the queue of the subscription empty and its thread
outside the callback keeps it so for as long as its own callback runs: nobody else can push.

* `postLast_reach` — a call of `postEVT` stands at the bottom of its stack;
* `syncInv_reach` — the async thread stays out of the callback while a SYNC post runs it;
* `callbacks_exclusive` — the law; `callbacks_overlap` — what happens otherwise.
-/

namespace PlatIF.Ioc

variable {abi : Abi} {s s' : State abi} {t u : Tid} {a : Act abi} {i j g : ℕ} {c c' : CbFrame abi}
  {rest fs : List (Frame abi)} {ok : State abi → Tid × Act abi → Prop} {maxSuberNum : ULong abi}
  {clients : ℕ}

/-! ### The conditions -/

/-- The async thread has an event for the callback, or runs the callback. -/
def AsyncPc.busy : AsyncPc abi → Bool
  | .call _ | .inCb _ => true
  | _ => false

/-- Does thread `u` run the async loop of slot `i` with an event for the callback. -/
def State.busyOn (s : State abi) (u : Tid) (i : ℕ) : Bool :=
  match s.base u with
  | .async j _ pc => j == i && pc.busy
  | _ => false

/-- The step is not a call of `postEVT` by a callback. -/
def cbNoPost (s : State abi) (x : Tid × Act abi) : Bool :=
  match s.frames x.1, x.2 with
  | .cb _ :: _, .call (.postEVT _ _) => false
  | _, _ => true

/-- The step is not that of a SYNC post which comes to a subscription with a queued event, or one whose async thread
has an event for the callback. -/
def syncFindsIdle (s : State abi) (x : Tid × Act abi) : Bool :=
  match s.frames x.1 with
  | .post f :: _ =>
    match f.pc with
    | .loop i =>
      !(s.isSync f && decide (i < s.ctx.maxSuberNum.toNat) && (s.suber i).args.lists (s.desc x.1 f)) ||
        (s.suber i).evtQueue.isEmpty && (List.range s.nextTid).all fun u => !s.busyOn u i
    | _ => true
  | _ => true

/-- The conditions under which callbacks exclude one another. -/
def overlapOk (s : State abi) (x : Tid × Act abi) : Prop :=
  noReuse s x = true ∧ cbNoPost s x = true ∧ syncFindsIdle s x = true

instance (s : State abi) (x : Tid × Act abi) : Decidable (overlapOk s x) :=
  inferInstanceAs (Decidable (_ ∧ _))

/-! ### One callback on a stack -/

/-- A call of `postEVT` stands at the bottom of the stack. -/
def PostLast : List (Frame abi) → Prop
  | [] => True
  | .post _ :: rest => rest = []
  | .sub _ :: rest | .unsub _ :: rest | .cb _ :: rest => PostLast rest

theorem PostLast.tail {x : Frame abi} (h : PostLast (x :: fs)) : PostLast fs := by
  cases x with
  | post f =>
    obtain rfl : fs = [] := h
    trivial
  | sub f | unsub f | cb f => exact h

/-- The stack that a call is made on. -/
theorem PostLast.call {api : Api abi} (h : PostLast (s.frames t)) (hu : s.userOnTop t)
    (hok : cbNoPost s (t, .call api) = true) : PostLast (s.frameOf t api :: s.frames t) := by
  cases api with
  | subEVT | unsubEVT => exact h
  | postEVT d o =>
    rcases hu with ⟨hf, -⟩ | ⟨f, rest, hf⟩
    · exact hf
    · simp [cbNoPost, hf] at hok

theorem postLast_trans (hP : PostLast (s.frames t)) (hok : cbNoPost s (t, a) = true) (h : Trans s t a s') :
    PostLast (s'.frames t) := by
  cases h.framesStep with
  | same h => rwa [h]
  | called ha hu h =>
    rw [h]
    exact hP.call hu (ha ▸ hok)
  | returned h =>
    rw [h] at hP
    exact hP.tail
  | unsub hf h | post hf h | sync _ hf _ _ _ _ _ h | cbReturned hf h =>
    rw [hf] at hP
    rw [h]
    exact hP
  | wrote _ hf _ _ h =>
    rw [hf] at hP
    rw [h]
    exact hP
  | delivered _ h =>
    rw [h]
    trivial
  | replayed _ _ h =>
    rw [h]
    rfl

theorem postLast_reach (hok : ∀ s x, ok s x → cbNoPost s x = true) (h : Reach ok maxSuberNum clients s) :
    ∀ t, PostLast (s.frames t) :=
  h.induction (P := fun s => ∀ t, PostLast (s.frames t)) (fun _ => trivial) fun s s' t _ _ hP ha _ h u => by
    by_cases hu : u = t
    · rw [hu]
      exact postLast_trans (hP t) (hok _ _ ha) h
    · rw [h.frames_ne hu]
      exact hP u

/-- A callback of subscription `g`. -/
def Frame.isCbOf (g : ℕ) : Frame abi → Bool
  | .cb c => c.sid == g
  | _ => false

/-- How many invocations of the callback of subscription `g` are in progress on thread `t`. -/
def State.invoking (s : State abi) (g : ℕ) (t : Tid) : ℕ := (s.frames t).countP (Frame.isCbOf g)

theorem countP_cb_cons_le (x : Frame abi) (h : fs.countP (Frame.isCbOf g) = 0) :
    (x :: fs).countP (Frame.isCbOf g) ≤ 1 := by
  rw [List.countP_cons, h]
  cases x.isCbOf g <;> simp

theorem UserStack.countP_cb_le {b : Base abi} (h : UserStack b fs) (hP : PostLast fs) :
    fs.countP (Frame.isCbOf g) ≤ 1 := by
  cases h with
  | client => simp
  | async | replay => exact countP_cb_cons_le _ rfl
  | sync _ _ _ h =>
    obtain rfl : _ = [] := hP
    exact countP_cb_cons_le _ rfl

theorem Stack.countP_cb_le {b : Base abi} (h : Stack b fs) (hP : PostLast fs) :
    fs.countP (Frame.isCbOf g) ≤ 1 := by
  cases h with
  | user h => exact h.countP_cb_le hP
  | sub h | unsub h => simpa [Frame.isCbOf] using h.countP_cb_le (g := g) hP
  | post _ _ h =>
    obtain rfl : _ = [] := hP
    simp [Frame.isCbOf]
  | replay => simp [Frame.isCbOf]
  | idle | gone => simp

theorem invoking_pos : 0 < s.invoking g t ↔ ∃ c, .cb c ∈ s.frames t ∧ c.sid = g := by
  rw [State.invoking, List.countP_pos_iff]
  constructor
  · rintro ⟨f, hf, hg⟩
    cases f with
    | cb c => exact ⟨c, hf, by simpa [Frame.isCbOf] using hg⟩
    | _ => simp [Frame.isCbOf] at hg
  · rintro ⟨c, hc, hg⟩
    exact ⟨_, hc, by simpa [Frame.isCbOf] using hg⟩

/-! ### The async thread keeps out -/

/-- The async threads of subscription `g` have no event for the callback, and none queued. -/
def State.Idle (s : State abi) (g : ℕ) : Prop :=
  ∀ u j pc, s.base u = .async j g pc → pc.busy = false ∧ (s.suber j).evtQueue.isEmpty = true

/-- While a SYNC post runs a callback, the async thread of that subscription has no event for it. -/
def SyncInv (s : State abi) : Prop :=
  ∀ t c p i, .cb c ∈ s.frames t → .post p ∈ s.frames t → p.pc = .inCb i → s.Idle c.sid

/-- A call of `postEVT` does not return to the callback of its async thread. -/
theorem retPost_busy {s₁ : State abi} {f : PostFrame abi} {r : TosResult} {pc pc' : AsyncPc abi}
    (hb' : (s₁.retPost t f rest r).base t = .async j g pc') (hb : s₁.base t = .async j g pc)
    (hq : pc.busy = false) : pc'.busy = false := by
  rcases State.retPost_base_self s₁ t f rest r with h | ⟨_, _, _, -, -, h⟩
  · rw [h, hb] at hb'
    cases hb'
    exact hq
  · rw [h] at hb'
    cases hb'
    rfl

/-- A thread comes to the callback only from a queue that is not empty. -/
theorem Trans.busy_next (hT : ThreadInv s) (h : Trans s t a s') {pc pc' : AsyncPc abi}
    (hb : s.base u = .async j g pc) (hq : pc.busy = false) (he : (s.suber j).evtQueue.isEmpty = true)
    (hb' : s'.base u = .async j g pc') : pc'.busy = false := by
  have hsame : s'.base u = s.base u → pc'.busy = false := fun h => by
    rw [h, hb] at hb'
    cases hb'
    exact hq
  by_cases hu : u = t
  · subst hu
    have hS := hT.stack u
    cases h
    case asyncTake hb₀ _ _ he₀ =>
      rw [hb] at hb₀
      cases hb₀
      simp [he] at he₀
    case asyncCall hb₀ _ =>
      rw [hb] at hb₀
      cases hb₀
      simp [AsyncPc.busy] at hq
    case cbRetAsync | asyncStart | asyncWait | asyncWake | asyncDrain | asyncReplay | asyncTop | asyncRetire |
        asyncRedo =>
      simp only [State.setBase, State.setFrames, State.setTls, State.obs, State.retire_eq, Function.update_self,
        Base.async.injEq] at hb'
      obtain ⟨-, -, rfl⟩ := hb'
      rfl
    case asyncExit => simp at hb'
    case postNotFound | postBusy | postCacheFull | postCache | postEnd => exact retPost_busy hb' hb hq
    case unsubSignal hf _ hw | postSignal hf _ hw | postRetrySignal hf _ hw =>
      exact hsame (hw.base_self hS (by simp [hf]))
    case postAccept hf _ _ _ | postFull hf _ _ _ _ | postRetry hf _ _ _ _ _ | haltPush hf _ =>
      exact hsame (State.withThread_base_self (hT.ne_nextTid (by simp [hf])))
    all_goals exact hsame (by simp)
  · cases h.base_ne hu with
    | same h => exact hsame h
    | created hu' => simp [(hT.fresh u hu'.ge).1] at hb
    | woken _ h =>
      rw [h] at hb'
      cases hb'
      rfl

/-- A queue is empty for as long as nobody pushes. -/
theorem Effect.empty_next (h : Effect s s' t) (hno : ∀ f rest k, s.frames t = .post f :: rest → f.pc ≠ .push k)
    (he : (s.suber j).evtQueue.isEmpty = true) : (s'.suber j).evtQueue.isEmpty = true := by
  by_contra he'
  obtain ⟨f, rest, hf, hp⟩ := h.pushed he (by simpa using he')
  exact hno f rest j hf hp

theorem idle_trans (hT : ThreadInv s) (hq : s.Idle g) (h : Trans s t a s') (he : Effect s s' t)
    (hno : ∀ f rest k, s.frames t = .post f :: rest → f.pc ≠ .push k) : s'.Idle g := by
  intro u j pc' hb'
  have hold : ∀ {pc}, s.base u = .async j g pc → pc'.busy = false ∧ (s'.suber j).evtQueue.isEmpty = true :=
    fun hb => by
      obtain ⟨hbusy, hempty⟩ := hq u j _ hb
      exact ⟨h.busy_next hT hb hbusy hempty hb', he.empty_next hno hempty⟩
  cases h.base_next hT u with
  | same h₁ => exact hold (h₁ ▸ hb')
  | moved h₁ h₂ =>
    rw [hb'] at h₂
    cases h₂
    exact hold h₁
  | ended _ h₂ => simp [hb'] at h₂
  | @created k hu hx hx' h₂ =>
    -- only a push starts a thread
    cases he.thread k with
    | same h₁ => simp [h₁, hx] at hx'
    | letGo h₁ => simp [h₁] at hx'
    | fresh hf hp => exact absurd hp (hno _ _ _ hf)

/-- What a SYNC post finds at a subscription that it comes to. -/
theorem idle_of_sync (hT : ThreadInv s) (hI : SlotInv s) (hO : OwnInv s) {f : PostFrame abi}
    (hok : syncFindsIdle s (t, a) = true) (hf : s.frames t = .post f :: rest) (hp : f.pc = .loop i)
    (hi : i < s.ctx.maxSuberNum.toNat) (hl : (s.suber i).args.lists (s.desc t f) = true)
    (hs : s.isSync f = true) : s.Idle (s.sid i) := by
  simp only [syncFindsIdle, hf, hp, hs, hi, hl, decide_true, Bool.and_self, Bool.not_true, Bool.false_or,
    Bool.and_eq_true, List.all_eq_true, List.mem_range, Bool.not_eq_true'] at hok
  obtain ⟨hempty, hbusy⟩ := hok
  intro u j pc hb
  have hsid := hO.sid u j _ _ hb
  obtain rfl : i = j := hI.sid_inj i j hsid (hI.sid_pos i (EvtSubArgs.cb_ne_null_of_lists hl))
  have hlt : u < s.nextTid := by
    by_contra hge
    simp [(hT.fresh u (Nat.not_lt.mp hge)).1] at hb
  have hu := hbusy u hlt
  simp only [State.busyOn, hb, beq_self_eq_true, Bool.true_and] at hu
  exact ⟨hu, hempty⟩

theorem syncInv_trans (hT : ThreadInv s) (hL : LockInv s) (hI : SlotInv s) (hO : OwnInv s)
    (hP : ∀ t, PostLast (s.frames t)) (hY : SyncInv s) (hok : overlapOk s (t, a)) (h : Trans s t a s')
    (he : Effect s s' t) : SyncInv s' := by
  intro w c p i hc hp hpc
  -- the holder of the context mutex runs the callback, so it does not push, and no other thread does
  have hold : ∀ {p : PostFrame abi} {i : ℕ}, .cb c ∈ s.frames w → .post p ∈ s.frames w → p.pc = .inCb i →
      s'.Idle c.sid :=
    fun {p i} hc hp hpc => by
      refine idle_trans hT (hY w c p i hc hp hpc) h he fun f rest k hf hpush => ?_
      have hw : w = t := RecMutex.held_unique (hL.holder hp (by simp [Frame.holds_post, hpc]))
        (hL.post_holder hf (by simp [hpush]))
      have hlast := hP t
      rw [hf] at hlast
      obtain rfl : rest = [] := hlast
      simp [hw, hf] at hc
  by_cases hw : w = t
  · subst hw
    have hlast := hP w
    cases h.framesStep with
    | same h₁ =>
      rw [h₁] at hc hp
      exact hold hc hp hpc
    | @called api _ _ h₁ =>
      rw [h₁] at hc hp
      have hp' : .post p ∈ s.frames w := by
        rcases List.mem_cons.mp hp with hp | hp
        · cases api <;> simp only [State.frameOf, Frame.post.injEq, reduceCtorEq] at hp
          simp [hp] at hpc
        · exact hp
      exact hold (by cases api <;> simpa [State.frameOf] using hc) hp' hpc
    | returned h₁ => exact hold (by simp [h₁, hc]) (by simp [h₁, hp]) hpc
    | unsub hf h₁ =>
      rw [h₁] at hc hp
      exact hold (by simpa [hf] using hc) (by simpa [hf] using hp) hpc
    | post hf h₁ =>
      rw [hf] at hlast
      obtain rfl : _ = [] := hlast
      simp [h₁] at hc
    | cbReturned hf h₁ =>
      rw [hf] at hlast
      obtain rfl : _ = [] := hlast
      simp [h₁] at hc
    | @sync f k c₀ rest _ _ hf hp₀ hi hl hs hsid h₁ =>
      rw [hf] at hlast
      obtain rfl : rest = [] := hlast
      obtain rfl : c = c₀ := by simpa [h₁] using hc
      rw [hsid]
      exact idle_trans hT (idle_of_sync hT hI hO hok.2.2 hf hp₀ hi hl hs) h he fun f' _ k' hf' hp' => by
        obtain rfl : f' = f := Frame.post.inj (List.cons.inj (hf'.symm.trans hf)).1
        simp [hp₀] at hp'
    | @wrote c₀ f k d rest _ hf hp₀ _ h₁ =>
      rw [h₁] at hc
      exact hold (by simpa [hf] using hc) (by rw [hf]; exact List.mem_cons_of_mem _ List.mem_cons_self) hp₀
    | delivered _ h₁ => simp [h₁] at hp
    | replayed _ _ h₁ => simp [h₁] at hc
  · rw [h.frames_ne hw] at hc hp
    exact hold hc hp hpc

theorem syncInv_reach (h : Reach overlapOk maxSuberNum clients s) : SyncInv s :=
  h.induction (fun t c _ _ hc => by simp [State.init] at hc) fun _ _ _ _ hr hY ha _ h =>
    syncInv_trans (threadInv_reach hr) (lockInv_reach hr) (slotInv_reach hr) (ownInv_reach (fun _ _ h => h.1) hr)
      (postLast_reach (fun _ _ h => h.2.1) hr) hY ha h (h.effect (threadInv_reach hr) (allocInv_reach hr))

/-! ### The law -/

/-- **Callbacks of one subscription do not overlap.**  One thread at most is inside the callback of a subscription, and
it is inside once. -/
theorem callbacks_exclusive (hr : Reach overlapOk maxSuberNum clients s) (g : ℕ) :
    (∀ t, s.invoking g t ≤ 1) ∧ ∀ t u, 0 < s.invoking g t → 0 < s.invoking g u → t = u := by
  have hT := threadInv_reach hr
  have hL := lockInv_reach hr
  have hO := ownInv_reach (fun _ _ h => h.1) hr
  have hC := cbInv_reach (hr.mono fun _ _ h => h.1)
  have hY := syncInv_reach hr
  refine ⟨fun t => (hT.stack t).countP_cb_le (postLast_reach (fun _ _ h => h.2.1) hr t), fun t u ht hu => ?_⟩
  obtain ⟨c, hc, hcg⟩ := invoking_pos.mp ht
  obtain ⟨c', hc', hcg'⟩ := invoking_pos.mp hu
  rcases (hT.stack t).cb_mem hc with ⟨d, k, hb, hl⟩ | ⟨p, i, hp, hpc⟩ <;>
    rcases (hT.stack u).cb_mem hc' with ⟨d', k', hb', hl'⟩ | ⟨p', i', hp', hpc'⟩
  · -- two async threads of one subscription
    have hk := hC t c hl _ _ _ hb
    have hk' := hC u c' hl' _ _ _ hb'
    have hsid : s.sid c.suberIdx = s.sid c'.suberIdx := by
      rw [← hO.sid t _ _ _ hb, ← hO.sid u _ _ _ hb', ← hk, ← hk', hcg, hcg']
    have hslot := (slotInv_reach hr).sid_inj _ _ hsid ((slotInv_reach hr).sid_run t _ ⟨_, _, hb⟩)
    exact hO.unique t u _ ⟨_, _, hb⟩ (hslot ▸ ⟨_, _, hb'⟩)
  · have hk := hC t c hl _ _ _ hb
    have := (hY u c' p' i' hc' hp' hpc' t _ _ (by rw [hcg', ← hcg, hk]; exact hb)).1
    simp [AsyncPc.busy] at this
  · have hk' := hC u c' hl' _ _ _ hb'
    have := (hY t c p i hc hp hpc u _ _ (by rw [hcg, ← hcg', hk']; exact hb')).1
    simp [AsyncPc.busy] at this
  · -- two SYNC posts hold the context mutex
    exact RecMutex.held_unique (hL.holder hp (by simp [Frame.holds_post, hpc]))
      (hL.holder hp' (by simp [Frame.holds_post, hpc']))

/-- A post whose callbacks the poster runs itself. -/
def syncPost : Act lp64 := .call (.postEVT (.ofID lp64 7) (some ⟨optIDSyncMode, 0⟩))

/-- A SYNC post enters the callback that the async thread is running; and two async threads are in one callback after
a callback has unsubscribed itself and subscribed again.  No callback posts. -/
theorem callbacks_overlap :
    (∃ s : State lp64, Reach (fun s x => noReuse s x = true ∧ cbNoPost s x = true) (initMaxSuberNum lp64) 1 s ∧
      s.invoking 1 0 = 1 ∧ s.invoking 1 1 = 1) ∧
    ∃ s : State lp64, Reach (fun s x => cbNoPost s x = true) (initMaxSuberNum lp64) 1 s ∧ s.invoking 2 1 = 1 ∧
      s.invoking 2 2 = 1 := by
  constructor
  · obtain ⟨s, hr, hs⟩ := reach_of_run (fun s x => noReuse s x = true ∧ cbNoPost s x = true) (initMaxSuberNum lp64) 1
      (firstCallback 31 ++ [(0, syncPost), (0, .go), (0, .go)])
      (fun s => s.invoking 1 0 == 1 && s.invoking 1 1 == 1) (by decide +kernel)
    simp only [Bool.and_eq_true, beq_iff_eq] at hs
    exact ⟨s, hr, hs⟩
  · obtain ⟨s, hr, hs⟩ := reach_of_run (fun s x => cbNoPost s x = true) (initMaxSuberNum lp64) 1
      (firstCallback 31 ++ selfUnsub ++ [(1, .call (.subEVT ⟨1, 1, some [7]⟩)), (1, .go), (1, .ret .success),
        (1, .go), (1, .go)] ++ clientPost 7 31 ++ [(1, .go), (1, .go)] ++ clientPost 7 31 ++
        [(2, .go), (2, .go), (2, .go)])
      (fun s => s.invoking 2 1 == 1 && s.invoking 2 2 == 1) (by decide +kernel)
    simp only [Bool.and_eq_true, beq_iff_eq] at hs
    exact ⟨s, hr, hs⟩

/-- A SYNC post after the callback of the async thread has returned. -/
theorem callbacks_exclusive_sync :
    ∃ s : State lp64, 0 < s.invoking 1 0 ∧ (∀ t, s.invoking 1 t ≤ 1) ∧
      ∀ t u, 0 < s.invoking 1 t → 0 < s.invoking 1 u → t = u := by
  obtain ⟨s, hr, hs⟩ := reach_of_run overlapOk (1 : ULong lp64) 1
    (firstCallback 0 ++ [(1, .ret .success), (0, syncPost), (0, .go), (0, .go)])
    (fun s => s.invoking 1 0 == 1) (by decide +kernel)
  exact ⟨s, by simp [beq_iff_eq.mp hs], callbacks_exclusive hr 1⟩

end PlatIF.Ioc
