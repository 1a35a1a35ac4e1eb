import Mathlib.Data.Finset.Card
import PlatIF.Ioc.Section

/-!
# The subscriber count

`CurSuberNum` against the number of occupied slots.  They agree in every run in which no subscription is made
with a null callback and `unsubEVT` is not given the key of a free slot (`callsCount`), whatever the rest of
the calls, the posts and the async threads do (`curSuberNum_eq_occupied`).  Without that condition they do
not: `unsubEVT` by the null key on an empty table wraps the count (`nullKey_wraps_count`).
-/

namespace PlatIF.Ioc

variable {abi : Abi} {s s' : State abi} {t u : Tid} {a : Act abi} {i : ℕ}
  {rest : List (Frame abi)} {maxSuberNum : ULong abi} {clients : ℕ}

/-- The number of occupied slots. -/
def Ctx.occupiedNum (c : Ctx abi) : ℕ :=
  ((Finset.range c.maxSuberNum.toNat).filter fun i => (c.pEvtSubers i).occupied).card

/-- The key of a slot that no subscription fills. -/
def nullKey : EvtUnsubArgs := ⟨NULL, NULL⟩

/-- The step is no `subEVT` whose `malloc` fails or that fills a slot with a null callback, and no start of
an `unsubEVT` by the null key while some slot is free. -/
def callsCount (s : State abi) (x : Tid × Act abi) : Prop :=
  match s.frames x.1, x.2 with
  | .sub f :: _, .run env =>
    env.malloc = true ∧ (f.pEvtSubArgs.cbProcEvtF ≠ NULL ∨ s.ctx.curSuberNum ≥ s.ctx.maxSuberNum)
  | .unsub f :: _, .run _ =>
    f.pc = .lock → f.pEvtUnsubArgs = some nullKey → s.ctx.isAlloced = true →
      s.ctx.occupiedNum = s.ctx.maxSuberNum.toNat
  | _, _ => True

instance (s : State abi) (x : Tid × Act abi) : Decidable (callsCount s x) := by
  unfold callsCount
  split <;> infer_instance

/-! ### Counting occupied slots -/

theorem Suber.occupied_congr {x y : Suber abi} (h : y.args = x.args) : y.occupied ↔ x.occupied := by
  rw [Suber.occupied, Suber.occupied, h]

theorem Ctx.occupiedNum_le (c : Ctx abi) : c.occupiedNum ≤ c.maxSuberNum.toNat :=
  (Finset.card_filter_le _ _).trans (Finset.card_range _).le

theorem Ctx.occupiedNum_eq_max {c : Ctx abi} :
    c.occupiedNum = c.maxSuberNum.toNat ↔ ∀ i, i < c.maxSuberNum.toNat → (c.pEvtSubers i).occupied := by
  have h := Finset.card_filter_eq_iff (s := Finset.range c.maxSuberNum.toNat)
    (p := fun i => (c.pEvtSubers i).occupied)
  simpa [Ctx.occupiedNum] using h

theorem Ctx.occupiedNum_eq_zero {c : Ctx abi}
    (h : ∀ i, i < c.maxSuberNum.toNat → ¬ (c.pEvtSubers i).occupied) : c.occupiedNum = 0 := by
  simpa [Ctx.occupiedNum, Finset.filter_eq_empty_iff] using h

theorem Ctx.occupiedNum_congr {c d : Ctx abi} (hm : d.maxSuberNum = c.maxSuberNum)
    (ha : ∀ i, (d.pEvtSubers i).args = (c.pEvtSubers i).args) : d.occupiedNum = c.occupiedNum := by
  rw [Ctx.occupiedNum, Ctx.occupiedNum, hm]
  exact congrArg _ (Finset.filter_congr fun i _ => Suber.occupied_congr (ha i))

/-- Filling a free slot adds one. -/
theorem Ctx.occupiedNum_fill {c d : Ctx abi} (hm : d.maxSuberNum = c.maxSuberNum)
    (hi : i < c.maxSuberNum.toNat) (hfree : ¬ (c.pEvtSubers i).occupied)
    (hfull : (d.pEvtSubers i).occupied)
    (hne : ∀ j, j ≠ i → (d.pEvtSubers j).args = (c.pEvtSubers j).args) :
    d.occupiedNum = c.occupiedNum + 1 := by
  have : ((Finset.range d.maxSuberNum.toNat).filter fun j => (d.pEvtSubers j).occupied) =
      insert i ((Finset.range c.maxSuberNum.toNat).filter fun j => (c.pEvtSubers j).occupied) := by
    ext j
    by_cases hj : j = i
    · subst hj
      simp [hm, hi, hfull]
    · simp [hm, hj, Suber.occupied_congr (hne j hj)]
  rw [Ctx.occupiedNum, this, Finset.card_insert_of_notMem (by simp [hfree]), Ctx.occupiedNum]

/-- Freeing an occupied slot takes one away. -/
theorem Ctx.occupiedNum_free {c d : Ctx abi} (hm : d.maxSuberNum = c.maxSuberNum)
    (hi : i < c.maxSuberNum.toNat) (hfull : (c.pEvtSubers i).occupied)
    (hfree : ¬ (d.pEvtSubers i).occupied)
    (hne : ∀ j, j ≠ i → (d.pEvtSubers j).args = (c.pEvtSubers j).args) :
    d.occupiedNum + 1 = c.occupiedNum :=
  (Ctx.occupiedNum_fill hm.symm (hm ▸ hi) hfree hfull fun j hj => (hne j hj).symm).symm

/-! ### The invariant -/

/-- A call of `unsubEVT(NULL)` is past its lock. -/
def State.unsubAll (s : State abi) : Prop :=
  ∃ t f rest, s.frames t = .unsub f :: rest ∧ f.pEvtUnsubArgs = none ∧ f.pc ≠ .lock

/-- The count and what it rests on. -/
structure CountInv (s : State abi) : Prop where
  /-- A free slot has the null key. -/
  free : ∀ i, ¬ (s.suber i).occupied → (s.suber i).args.pCbPriv = NULL
  /-- An occupied slot has its identifiers. -/
  ids : ∀ i, (s.suber i).occupied → (s.suber i).args.pEvtIDs.isSome = true
  /-- `unsubEVT(NULL)` has freed the slots it has passed. -/
  passed : ∀ t f rest i, s.frames t = .unsub f :: rest → f.pEvtUnsubArgs = none →
    f.pc.idx = some i → ∀ j, j < i → ¬ (s.suber j).occupied
  /-- The null key is searched for in a full table only. -/
  null : ∀ t f rest, s.frames t = .unsub f :: rest → f.pEvtUnsubArgs = some nullKey →
    f.pc ≠ .lock → s.ctx.occupiedNum = s.ctx.maxSuberNum.toNat
  count : s.unsubAll ∨ s.ctx.curSuberNum.toNat = s.ctx.occupiedNum

/-- What a step does to the arguments of the slots and to the count. -/
inductive ArgsStep (s s' : State abi) (t : Tid) (a : Act abi) : Prop
  | same (ha : ∀ i, (s'.suber i).args = (s.suber i).args)
      (hc : s'.ctx.curSuberNum = s.ctx.curSuberNum)
  | fill {env f rest i} (hf : s.frames t = .sub f :: rest) (h : a = .run env)
      (hc : ¬ s.ctx.curSuberNum ≥ s.ctx.maxSuberNum) (hi : i < s.ctx.maxSuberNum.toNat)
      (ho : ¬ (s.suber i).occupied)
      (hx : (s'.suber i).args = { f.pEvtSubArgs with
        pEvtIDs := if env.malloc then some (f.pEvtSubArgs.pEvtIDs.getD []) else none })
      (hne : ∀ j, j ≠ i → (s'.suber j).args = (s.suber j).args)
      (hcur : s'.ctx.curSuberNum = if env.malloc then s.ctx.curSuberNum + 1 else s.ctx.curSuberNum)
  | freeNext {f rest i} (hf : s.frames t = .unsub f :: rest) (hs : s.slotStopped t f i)
      (hn : f.pEvtUnsubArgs = none) (hf' : s'.frames t = .unsub { f with pc := .scan (i + 1) } :: rest)
      (hx : (s'.suber i).args = (s.suber i).freed.args)
      (hne : ∀ j, j ≠ i → (s'.suber j).args = (s.suber j).args)
  | freeDone {f rest i k} (hf : s.frames t = .unsub f :: rest) (hs : s.slotStopped t f i)
      (hk : f.pEvtUnsubArgs = some k) (hf' : s'.frames t = rest)
      (hx : (s'.suber i).args = (s.suber i).freed.args) (hne : ∀ j, j ≠ i → (s'.suber j).args = (s.suber j).args)
      (hcur : s'.ctx.curSuberNum = s.ctx.curSuberNum - 1)
  | clear {f rest i} (hf : s.frames t = .unsub f :: rest) (hp : f.pc = .scan i)
      (hi : ¬ i < s.ctx.maxSuberNum.toNat) (ha : ∀ i, (s'.suber i).args = (s.suber i).args)
      (hcur : s'.ctx.curSuberNum = if f.pEvtUnsubArgs.isNone then 0 else s.ctx.curSuberNum)

/-- A write to one slot that keeps its arguments keeps all of them. -/
theorem update_args {g : ℕ → Suber abi} {x : Suber abi} (hx : x.args = (g i).args) (j : ℕ) :
    (Function.update g i x j).args = (g j).args := by
  by_cases hj : j = i
  · subst hj
    simpa using hx
  · simp [hj]

theorem Trans.argsStep (hA : AllocInv s) (h : Trans s t a s') : ArgsStep s s' t a := by
  cases h
  case subNoSlot => exact .same (fun i => by simp [State.suber, hA.allocSubers]) (by simp)
  case subFill env f rest m i hf hm hc hi =>
    obtain ⟨hlt, ho⟩ := Ctx.freeSuberIdx_eq_some hi
    rw [hA.allocSubers] at ho
    have hmax : s.ctx.allocSubers.maxSuberNum = s.ctx.maxSuberNum := by rw [Ctx.allocSubers_eq]
    rw [hmax] at hlt
    refine .fill hf rfl hc hlt ho ?_ (fun j hj => ?_) rfl
    · cases hml : env.malloc <;> simp [State.suber, Suber.ofArgs, Suber.ofArgsCopied]
    · simp [State.suber, hj, hA.allocSubers]
  case unsubFreeNext hf hs hn _ =>
    exact .freeNext hf hs hn (by simp) (by simp [State.suber]) fun j hj => by simp [State.suber, hj]
  case unsubFreeDone hf hs hk =>
    exact .freeDone hf hs hk (by simp) (by simp [State.suber]) (fun j hj => by simp [State.suber, hj]) rfl
  case unsubEnd hf hp hi => exact .clear hf hp hi (fun _ => rfl) rfl
  case unsubSignal hw | postSignal hw | postRetrySignal hw =>
    obtain ⟨b, rfl, -⟩ := hw.eq
    exact .same (fun _ => rfl) rfl
  all_goals exact .same (fun _ => by simp [State.suber, update_args]) (by simp)

/-! ### Every step keeps the invariant -/

/-- A `subEVT` that fills a slot does so with a callback and with identifiers. -/
theorem fill_ok {f : SubFrame} {env : Env} (hok : callsCount s (t, a))
    (hf : s.frames t = .sub f :: rest) (ha : a = .run env)
    (hc : ¬ s.ctx.curSuberNum ≥ s.ctx.maxSuberNum) :
    env.malloc = true ∧ f.pEvtSubArgs.cbProcEvtF ≠ NULL := by
  subst ha
  simp only [callsCount, hf] at hok
  exact ⟨hok.1, hok.2.resolve_right hc⟩

theorem free_step (hC : CountInv s) (hok : callsCount s (t, a)) (hs : ArgsStep s s' t a) (i : ℕ)
    (ho : ¬ (s'.suber i).occupied) : (s'.suber i).args.pCbPriv = NULL := by
  have hkeep : (s'.suber i).args = (s.suber i).args → (s'.suber i).args.pCbPriv = NULL := fun he => by
    rw [he]
    exact hC.free i (mt (Suber.occupied_congr he).mpr ho)
  cases hs with
  | same ha _ => exact hkeep (ha i)
  | fill hf h hc _ _ hx hne _ =>
    by_cases hi : i = ‹ℕ›
    · subst hi
      exact absurd (fill_ok hok hf h hc).2 (by simpa [Suber.occupied, hx] using ho)
    · exact hkeep (hne i hi)
  | freeNext _ _ _ _ hx hne | freeDone _ _ _ _ hx hne =>
    by_cases hi : i = ‹ℕ›
    · subst hi
      rw [hx]
      rfl
    · exact hkeep (hne i hi)
  | clear _ _ _ ha _ => exact hkeep (ha i)

theorem ids_step (hC : CountInv s) (hok : callsCount s (t, a)) (hs : ArgsStep s s' t a) (i : ℕ)
    (ho : (s'.suber i).occupied) : (s'.suber i).args.pEvtIDs.isSome = true := by
  have hkeep : (s'.suber i).args = (s.suber i).args →
      (s'.suber i).args.pEvtIDs.isSome = true := fun he => by
    rw [he]
    exact hC.ids i ((Suber.occupied_congr he).mp ho)
  cases hs with
  | same ha _ => exact hkeep (ha i)
  | fill hf h hc _ _ hx hne _ =>
    by_cases hi : i = ‹ℕ›
    · subst hi
      simp [hx, (fill_ok hok hf h hc).1]
    · exact hkeep (hne i hi)
  | freeNext _ _ _ _ hx hne | freeDone _ _ _ _ hx hne =>
    by_cases hi : i = ‹ℕ›
    · subst hi
      exact absurd ho (by rw [Suber.occupied_congr hx]; exact Suber.freed_occupied _)
    · exact hkeep (hne i hi)
  | clear _ _ _ ha _ => exact hkeep (ha i)

/-- `unsubEVT` occupies no slot. -/
theorem free_of_unsub {f : UnsubFrame} (hf : s.frames t = .unsub f :: rest) (hs : ArgsStep s s' t a)
    {i : ℕ} (ho : ¬ (s.suber i).occupied) : ¬ (s'.suber i).occupied := by
  have hkeep : (s'.suber i).args = (s.suber i).args → ¬ (s'.suber i).occupied :=
    fun he => mt (Suber.occupied_congr he).mp ho
  cases hs with
  | same ha _ => exact hkeep (ha i)
  | fill hf' => simp [hf] at hf'
  | freeNext _ _ _ _ hx hne | freeDone _ _ _ _ hx hne =>
    by_cases hi : i = ‹ℕ›
    · subst hi
      rw [Suber.occupied_congr hx]
      exact Suber.freed_occupied _
    · exact hkeep (hne i hi)
  | clear _ _ _ ha _ => exact hkeep (ha i)

theorem passed_self (hT : ThreadInv s) (hA : AllocInv s) (hC : CountInv s) (h : Trans s t a s')
    {f : UnsubFrame} (hf : s'.frames t = .unsub f :: rest) (hn : f.pEvtUnsubArgs = none)
    (hi : f.pc.idx = some i) (j : ℕ) (hj : j < i) : ¬ (s'.suber j).occupied := by
  have hargs := h.argsStep hA
  cases h.unsubStep (hT.stack t) hf with
  | called hp => simp [hp, UnsubPc.idx] at hi
  | locked _ _ _ _ hp' _ =>
    simp only [hp', UnsubPc.idx, Option.some.injEq] at hi
    omega
  | stays hf₀ he hi₀ =>
    exact free_of_unsub hf₀ hargs (hC.passed t _ _ i hf₀ (he.symm.trans hn) (hi₀.symm.trans hi) j hj)
  | skipped hf₀ he _ _ hk => exact absurd (by simp [UnsubFrame.picks, ← he, hn]) hk
  | freed hf₀ he hs hp' hn₀ hx =>
    rename_i g k
    simp only [hp', UnsubPc.idx, Option.some.injEq] at hi
    have hk : g.pc.idx = some k := by rcases hs with ⟨hp, -⟩ | ⟨hp, -⟩ <;> simp [hp, UnsubPc.idx]
    rcases Nat.lt_or_ge j k with hjk | hjk
    · exact free_of_unsub hf₀ hargs (hC.passed t _ _ k hf₀ hn₀ hk j hjk)
    · obtain rfl : j = k := by omega
      rcases hx with hx | hx
      · exact hx
      · exact free_of_unsub hf₀ hargs fun ho => by simpa [hx] using hC.ids j ho

/-- A call of `unsubEVT` by key that goes on leaves the slots. -/
theorem args_of_unsub {f f' : UnsubFrame} {k : EvtUnsubArgs} (hf : s.frames t = .unsub f :: rest)
    (hk : f.pEvtUnsubArgs = some k) (hf' : s'.frames t = .unsub f' :: rest) (hs : ArgsStep s s' t a)
    (i : ℕ) : (s'.suber i).args = (s.suber i).args := by
  cases hs with
  | same ha _ => exact ha i
  | fill hf₀ => simp [hf] at hf₀
  | freeNext hf₀ _ hn =>
    obtain ⟨rfl, -⟩ : _ = f ∧ _ := by simpa using hf₀.symm.trans hf
    simp [hk] at hn
  | freeDone hf₀ _ _ hr =>
    obtain ⟨-, rfl⟩ : _ = f ∧ _ = rest := by simpa using hf₀.symm.trans hf
    exact absurd (hf'.symm.trans hr) (by simp)
  | clear _ _ _ ha _ => exact ha i

theorem null_self (hT : ThreadInv s) (hA : AllocInv s) (hC : CountInv s)
    (hok : callsCount s (t, a)) (h : Trans s t a s') {f : UnsubFrame}
    (hf : s'.frames t = .unsub f :: rest) (hk : f.pEvtUnsubArgs = some nullKey) (hp : f.pc ≠ .lock) :
    s'.ctx.occupiedNum = s'.ctx.maxSuberNum.toNat := by
  have hkeep : ∀ {g : UnsubFrame}, s.frames t = .unsub g :: rest → g.pEvtUnsubArgs = some nullKey →
      s.ctx.occupiedNum = s.ctx.maxSuberNum.toNat →
      s'.ctx.occupiedNum = s'.ctx.maxSuberNum.toNat := fun hf₀ hk₀ hfull => by
    rw [Ctx.occupiedNum_congr h.maxSuberNum_eq (args_of_unsub hf₀ hk₀ hf (h.argsStep hA)),
      h.maxSuberNum_eq]
    exact hfull
  cases h.unsubStep (hT.stack t) hf with
  | called hp₀ => exact absurd hp₀ hp
  | locked hf₀ ha he hp₀ _ hal =>
    subst ha
    simp only [callsCount, hf₀] at hok
    exact hkeep hf₀ (he.symm.trans hk) (hok hp₀ (he.symm.trans hk) hal)
  | stays hf₀ he hi =>
    refine hkeep hf₀ (he.symm.trans hk) (hC.null t _ _ hf₀ (he.symm.trans hk) fun hp₀ => hp ?_)
    rwa [← UnsubPc.idx_eq_none, hi, UnsubPc.idx_eq_none]
  | skipped hf₀ he hp₀ =>
    exact hkeep hf₀ (he.symm.trans hk) (hC.null t _ _ hf₀ (he.symm.trans hk) (by simp [hp₀]))
  | freed _ he _ _ hn => simp [he.symm.trans hk] at hn

/-- The slot that `unsubEVT` frees by key is in the table and is occupied. -/
theorem occupied_of_freeDone (hH : HolderInv s) (hC : CountInv s) {f : UnsubFrame} {k : EvtUnsubArgs}
    (hf : s.frames t = .unsub f :: rest) (hs : s.slotStopped t f i) (hk : f.pEvtUnsubArgs = some k) :
    i < s.ctx.maxSuberNum.toNat ∧ (s.suber i).occupied := by
  have hpick : i < s.ctx.maxSuberNum.toNat ∧ f.picks (s.suber i) := by
    rcases hs with ⟨-, hlt, hp, -⟩ | ⟨hp, -⟩
    · exact ⟨hlt, hp⟩
    · have := hH.unsub t f rest i hf (by rw [hp]; rfl)
      exact ⟨this.lt, this.picks⟩
  refine ⟨hpick.1, ?_⟩
  by_contra ho
  -- a free slot is found by the null key only, and that one is searched for in a full table
  have hcb : (s.suber i).args.cbProcEvtF = NULL := not_not.mp ho
  have hkey : (s.suber i).hasKey k := by simpa [UnsubFrame.picks, hk] using hpick.2
  have hnull : k = nullKey := by
    cases k
    simp [Suber.hasKey, hcb, hC.free i ho] at hkey
    simp [nullKey, ← hkey.1, ← hkey.2]
  exact ho (Ctx.occupiedNum_eq_max.mp (hC.null t f rest hf (hnull ▸ hk) hs.pc_ne) i hpick.1)

theorem count_step (hH : HolderInv s) (hA : AllocInv s) (hC : CountInv s)
    (hok : callsCount s (t, a)) (h : Trans s t a s') :
    s'.unsubAll ∨ s'.ctx.curSuberNum.toNat = s'.ctx.occupiedNum := by
  have hmax := h.maxSuberNum_eq
  -- at the end of the table `unsubEVT(NULL)` has freed every slot
  have hzero : ∀ {f rest i}, s.frames t = .unsub f :: rest → f.pEvtUnsubArgs = none →
      f.pc = .scan i → ¬ i < s.ctx.maxSuberNum.toNat → s.ctx.occupiedNum = 0 :=
    fun {f rest i} hf hn hp hi =>
      Ctx.occupiedNum_eq_zero fun j hj => hC.passed t f rest i hf hn (by rw [hp]; rfl) j (by omega)
  rcases hC.count with ⟨u, f, rest, hf, hn, hp⟩ | hcount
  · by_cases hu : u = t
    · subst hu
      rcases h.unsubAll_next hf hn hp with ⟨f', hf', hn', hp'⟩ | ⟨i, hpi, hi, hcur, hsub⟩
      · exact .inl ⟨u, f', rest, hf', hn', hp'⟩
      · refine .inr ?_
        rw [Ctx.occupiedNum_congr hmax fun i => by rw [hsub], hzero hf hn hpi hi, hcur]
        rfl
    · exact .inl ⟨u, f, rest, (h.frames_ne hu).trans hf, hn, hp⟩
  · cases h.argsStep hA with
    | same ha hc => exact .inr (by rw [Ctx.occupiedNum_congr hmax ha, hc, hcount])
    | fill hf ha hc hi ho hx hne hcur =>
      obtain ⟨hml, hcb⟩ := fill_ok hok hf ha hc
      refine .inr ?_
      rw [Ctx.occupiedNum_fill hmax hi ho (by simpa [Suber.occupied, hx] using hcb) hne, hcur, hml,
        if_pos rfl, ← hcount]
      have hlt : s.ctx.curSuberNum.toNat < s.ctx.maxSuberNum.toNat :=
        BitVec.lt_def.mp (BitVec.not_le.mp hc)
      exact WrapRing.toNat_add_one (by have := s.ctx.maxSuberNum.isLt; omega) rfl
    | freeNext hf hs hn hf' => exact .inl ⟨t, _, _, hf', hn, by simp⟩
    | freeDone hf hs hk hf' hx hne hcur =>
      obtain ⟨hi, ho⟩ := occupied_of_freeDone hH hC hf hs hk
      refine .inr ?_
      have hocc := Ctx.occupiedNum_free hmax hi ho
        (by rw [Suber.occupied_congr hx]; exact Suber.freed_occupied _) hne
      rw [hcur]
      exact WrapRing.toNat_sub_one (hcount.trans hocc.symm)
    | clear hf hp hi ha hcur =>
      refine .inr ?_
      rw [Ctx.occupiedNum_congr hmax ha, hcur]
      split
      · rename_i hn
        rw [hzero hf (by simpa using hn) hp hi]
        rfl
      · exact hcount

theorem countInv_trans (hT : ThreadInv s) (hL : LockInv s) (hA : AllocInv s) (hH : HolderInv s)
    (hC : CountInv s) (hok : callsCount s (t, a)) (h : Trans s t a s') : CountInv s' where
  free i := free_step hC hok (h.argsStep hA) i
  ids i := ids_step hC hok (h.argsStep hA) i
  passed u f rest i hf hn hi j hj := by
    by_cases hu : u = t
    · subst hu
      exact passed_self hT hA hC h hf hn hi j hj
    · rw [h.frames_ne hu] at hf
      have hd := hL.unsub_holder hf (UnsubPc.idx_ne_lock hi)
      rw [Suber.occupied_congr ((h.sameTable hL hu hd).slot j).args]
      exact hC.passed u f rest i hf hn hi j hj
  null u f rest hf hk hp := by
    by_cases hu : u = t
    · subst hu
      exact null_self hT hA hC hok h hf hk hp
    · rw [h.frames_ne hu] at hf
      have hs := h.sameTable hL hu (hL.unsub_holder hf hp)
      rw [Ctx.occupiedNum_congr h.maxSuberNum_eq fun j => (hs.slot j).args, h.maxSuberNum_eq]
      exact hC.null u f rest hf hk hp
  count := count_step hH hA hC hok h

theorem countInv_reach (h : Reach callsCount maxSuberNum clients s) : CountInv s := by
  refine h.induction ⟨fun _ _ => rfl, fun _ ho => absurd rfl ho, fun t f rest i hf => ?_,
    fun t f rest hf => ?_, .inr ?_⟩ fun _ _ _ _ hr hC hok _ h =>
      countInv_trans (threadInv_reach hr) (lockInv_reach hr) (allocInv_reach hr) (holderInv_reach hr)
        hC hok h
  · simp [State.init] at hf
  · simp [State.init] at hf
  · rw [Ctx.occupiedNum_eq_zero fun _ _ ho => ho rfl]
    rfl

/-! ### The count at the return of a call -/

/-- The holder of the context mutex, when it is not in `unsubEVT`, keeps out every `unsubEVT(NULL)`. -/
theorem not_unsubAll_of_holder (hL : LockInv s) (hd : ∀ u, 0 < s.depth u → u = t)
    (hf : ∀ f rest, s.frames t ≠ .unsub f :: rest) : ¬ s.unsubAll := by
  rintro ⟨u, f, rest, hu, -, hp⟩
  obtain rfl := hd u (hL.unsub_holder hu hp)
  exact hf f rest hu

/-- When `subEVT` or `unsubEVT` returns, no `unsubEVT(NULL)` is in progress. -/
theorem not_unsubAll_of_ret (hT : ThreadInv s) (hL : LockInv s) (h : Trans s t a s') {f : Frame abi}
    {r : TosResult} (hret : Returns s s' t f r)
    (hcall : (∃ g, f = .sub g) ∨ ∃ g, f = .unsub g) : ¬ s'.unsubAll := by
  rintro ⟨u, g, rest, hg, -, hp⟩
  obtain ⟨htop, hapi, -⟩ := hret
  by_cases hu : u = t
  · subst hu
    have hS := hT.stack u
    rw [htop, hg] at hS
    exact absurd (hS.below_api hapi) (by simp [Frame.isApi])
  rw [h.frames_ne hu] at hg
  have hd := hL.unsub_holder hg hp
  -- the caller obtained the mutex in this step, or held it
  have hlock : ∀ {m}, RecMutex.tryLock s.ctx.mutex t = some m → False :=
    fun hm => hu (eq_of_tryLock hm hd)
  have hheld : ∀ {f rest}, s.frames t = .unsub f :: rest → f.pc ≠ .lock → False :=
    fun hf hp => hu (RecMutex.held_unique hd (hL.unsub_holder hf hp))
  cases h
  case subFull hm _ | subNoSlot hm _ _ _ | subFill hm _ _ | unsubLock hm _ | unsubNotFound hm _ =>
    exact hlock hm
  case unsubStop hf hp _ _ _ | unsubSkip hf hp _ _ | unsubEnd hf hp _ | unsubSetFlag hf hp _ |
      unsubSignal hf hp _ => exact hheld hf (by simp [hp])
  case unsubFreeNext hf hs _ _ | unsubKeepNext hf hs _ _ | unsubFreeDone hf hs _ =>
    exact hheld hf hs.pc_ne
  case call =>
    have hlen := congrArg List.length htop
    simp only [State.setFrames, Function.update_self, List.length_cons] at hlen
    omega
  case halt | haltPush | haltRetire | asyncStart | asyncExit | asyncWait | asyncTake | asyncWake |
      asyncDrain | asyncTop | asyncRetire | asyncRedo => exact absurd htop.symm (by simp)
  all_goals rcases hcall with ⟨g', rfl⟩ | ⟨g', rfl⟩ <;> simp_all

/-- **The count is right at the return of every `subEVT` and `unsubEVT`**, never exceeds the table, and
`subEVT` finds no room only when every slot is taken. -/
theorem curSuberNum_eq_occupied {f : Frame abi} {r : TosResult}
    (hr : Reach callsCount maxSuberNum clients s) (hok : callsCount s (t, a))
    (hn : next s (t, a) = some s') (hret : Returns s s' t f r)
    (hcall : (∃ g, f = .sub g) ∨ ∃ g, f = .unsub g) :
    s'.ctx.curSuberNum.toNat = s'.ctx.occupiedNum ∧
      s'.ctx.occupiedNum ≤ s'.ctx.maxSuberNum.toNat ∧
      (r = .notEnoughResource →
        ∀ i, i < s'.ctx.maxSuberNum.toNat → (s'.suber i).occupied) := by
  obtain ⟨-, h⟩ := next_trans hn
  have hT := threadInv_reach hr
  have hL := lockInv_reach hr
  have hC := countInv_reach hr
  have hC' := countInv_trans hT hL (allocInv_reach hr) (holderInv_reach hr) hC hok h
  refine ⟨hC'.count.resolve_left (not_unsubAll_of_ret hT hL h hret hcall), s'.ctx.occupiedNum_le, ?_⟩
  rintro rfl
  obtain ⟨htop, -, hres⟩ := hret
  cases h
  case subFull hf hm hc =>
    have hcount := hC.count.resolve_left (not_unsubAll_of_holder hL (fun u hu => eq_of_tryLock hm hu)
      (by simp [hf]))
    refine Ctx.occupiedNum_eq_max.mp (Nat.le_antisymm s.ctx.occupiedNum_le ?_)
    exact (BitVec.le_def.mp hc).trans hcount.le
  case subFill => exact absurd hres (by split <;> simp)
  case call =>
    have hlen := congrArg List.length htop
    simp only [State.setFrames, Function.update_self, List.length_cons] at hlen
    omega
  case halt | haltPush | haltRetire | asyncStart | asyncExit | asyncWait | asyncTake | asyncWake |
      asyncDrain | asyncTop | asyncRetire | asyncRedo => exact absurd htop.symm (by simp)
  all_goals rcases hcall with ⟨g', rfl⟩ | ⟨g', rfl⟩ <;> simp_all

/-- The call in progress subscribes or unsubscribes. -/
def Frame.counts : Frame abi → Bool
  | .sub _ | .unsub _ => true
  | _ => false

theorem Frame.counts_cases {f : Frame abi} (h : f.counts = true) : (∃ g, f = .sub g) ∨ ∃ g, f = .unsub g := by
  cases f with
  | sub g => exact .inl ⟨g, rfl⟩
  | unsub g => exact .inr ⟨g, rfl⟩
  | post g | cb g => simp [Frame.counts] at h

/-- Two subscriptions fill a table of two slots. -/
def subTwo : List (Tid × Act lp64) :=
  [(0, .call (.subEVT ⟨1, 1, some [7]⟩)), (0, .go), (0, .call (.subEVT ⟨2, 2, some [8]⟩)), (0, .go)]

/-- One of two subscriptions is ended and counted off; and in a full table a third one is refused. -/
theorem curSuberNum_eq_occupied_two :
    (∃ (s' : State lp64), s'.ctx.curSuberNum = 1 ∧ ¬ (s'.suber 0).occupied ∧
      s'.ctx.curSuberNum.toNat = s'.ctx.occupiedNum) ∧
    ∃ (s' : State lp64), s'.returned 0 .notEnoughResource = true ∧ s'.ctx.maxSuberNum = 2 ∧
      s'.ctx.curSuberNum.toNat = s'.ctx.occupiedNum ∧ ∀ i, i < s'.ctx.maxSuberNum.toNat → (s'.suber i).occupied := by
  constructor
  · obtain ⟨s, hr, hs⟩ := reach_of_run callsCount (2 : ULong lp64) 1
      (subTwo ++ [(0, .call (.unsubEVT (some ⟨1, 1⟩))), (0, .go)])
      (fun s : State lp64 => (s.onlyFrame 0).any fun f => (next s (0, .go)).any fun s' : State lp64 =>
        f.counts && f.isApi && s'.returned 0 .success && decide (callsCount s (0, .go)) &&
          decide (s'.ctx.curSuberNum = 1) && decide (¬ (s'.suber 0).occupied)) (by decide +kernel)
    simp only [Option.any_eq_true, State.onlyFrame_eq_some, Bool.and_eq_true, decide_eq_true_eq] at hs
    obtain ⟨f, hf, s', hn, ⟨⟨⟨⟨hcounts, hapi⟩, hret⟩, hok⟩, hcur⟩, hfree⟩ := hs
    exact ⟨s', hcur, hfree, (curSuberNum_eq_occupied hr hok hn (returns_of_returned hf hapi hret)
      (Frame.counts_cases hcounts)).1⟩
  · obtain ⟨s, hr, hs⟩ := reach_of_run callsCount (2 : ULong lp64) 1
      (subTwo ++ [(0, .call (.subEVT ⟨3, 3, some [9]⟩))])
      (fun s : State lp64 => (s.onlyFrame 0).any fun f => (next s (0, .go)).any fun s' : State lp64 =>
        f.counts && f.isApi && s'.returned 0 .notEnoughResource && decide (callsCount s (0, .go)) &&
          decide (s'.ctx.maxSuberNum = 2)) (by decide +kernel)
    simp only [Option.any_eq_true, State.onlyFrame_eq_some, Bool.and_eq_true, decide_eq_true_eq] at hs
    obtain ⟨f, hf, s', hn, ⟨⟨⟨hcounts, hapi⟩, hret⟩, hok⟩, hmax⟩ := hs
    obtain ⟨hcur, -, hfull⟩ := curSuberNum_eq_occupied hr hok hn (returns_of_returned hf hapi hret)
      (Frame.counts_cases hcounts)
    exact ⟨s', hret, hmax, hcur, hfull rfl⟩

/-- Every `malloc` succeeds. -/
def mallocOk (_ : State abi) (x : Tid × Act abi) : Bool :=
  match x.2 with
  | .run env => env.malloc
  | _ => true

/-- Subscribe, unsubscribe, and unsubscribe once more by the null key: the count wraps below zero, and the
next `subEVT` is refused although every slot is free. -/
theorem nullKey_wraps_count :
    ∃ (s s' : State lp64) (f : Frame lp64),
      Reach (fun s x => mallocOk s x = true) (initMaxSuberNum lp64) 1 s ∧ next s (0, .go) = some s' ∧
        Returns s s' 0 f .notEnoughResource ∧ s'.ctx.curSuberNum.toNat = 2 ^ 64 - 1 ∧
        s'.ctx.occupiedNum = 0 := by
  obtain ⟨s, hr, hs⟩ := reach_of_run (fun s x => mallocOk s x = true) (initMaxSuberNum lp64) 1
    [(0, .call (.subEVT ⟨1, 1, some [7]⟩)), (0, .go),
      (0, .call (.unsubEVT (some ⟨1, 1⟩))), (0, .go), (0, .go),
      (0, .call (.unsubEVT (some nullKey))), (0, .go), (0, .go),
      (0, .call (.subEVT ⟨1, 1, some [7]⟩))]
    (fun s => (s.onlyFrame 0).any fun f => (next s (0, .go)).any fun s' =>
      f.isApi && s'.returned 0 .notEnoughResource && s'.ctx.curSuberNum.toNat == 2 ^ 64 - 1 &&
      s'.ctx.occupiedNum == 0) (by decide +kernel)
  simp only [Option.any_eq_true, State.onlyFrame_eq_some, Bool.and_eq_true, beq_iff_eq] at hs
  obtain ⟨f, hf, s', hn, ⟨⟨hapi, hret⟩, hcur⟩, hocc⟩ := hs
  exact ⟨s, s', f, hr, hn, returns_of_returned hf hapi hret, hcur, hocc⟩

end PlatIF.Ioc
