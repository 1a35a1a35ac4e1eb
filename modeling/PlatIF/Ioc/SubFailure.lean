import PlatIF.Ioc.Count

/-!
# Subscriptions that are refused

`__IOC_ConlesMode_subEVT` fills a slot before it asks for the memory of the identifiers, and counts the slot after that.

* `State.Refused` — a call leaves the table, the count and the room for later subscriptions as they were;
* `Ctx.room` — how many subscriptions can still succeed (`subEVT_room`);
* `subEVT_failure_iff` — a call that fails is refused so exactly when its `malloc` is not what fails.
-/

namespace PlatIF.Ioc

variable {abi : Abi} {s s' : State abi} {t : Tid} {i : ℕ} {env : Env} {f : SubFrame} {r : TosResult}
  {rest : List (Frame abi)} {maxSuberNum : ULong abi} {clients : ℕ} {ok : State abi → Tid × Act abi → Prop}

/-- How many subscriptions fit: the free slots, and what the count leaves below `MaxSuberNum`. -/
def Ctx.room (c : Ctx abi) : ℕ :=
  min (c.maxSuberNum.toNat - c.occupiedNum) (c.maxSuberNum.toNat - c.curSuberNum.toNat)

/-- From `s` to `s'` nothing was subscribed, and nothing tells of a call with these arguments. -/
structure State.Refused (s s' : State abi) (args : EvtSubArgs) : Prop where
  occupied : ∀ i, (s'.suber i).occupied ↔ (s.suber i).occupied
  count : s'.ctx.curSuberNum = s.ctx.curSuberNum
  kept : ∀ i, (s.suber i).occupied → s'.suber i = s.suber i ∧ s'.sid i = s.sid i
  room : s'.ctx.room = s.ctx.room
  /-- `unsubEVT` of the refused pair finds what it would have found before. -/
  key : ∀ i, (s'.suber i).hasKey ⟨args.cbProcEvtF, args.pCbPriv⟩ →
    (s.suber i).hasKey ⟨args.cbProcEvtF, args.pCbPriv⟩

/-- The call does not come to a `malloc` that fails: the memory is there, or the call is refused for want of room. -/
def State.mallocFits (s : State abi) (env : Env) : Prop :=
  env.malloc = true ∨ s.ctx.curSuberNum ≥ s.ctx.maxSuberNum ∨ ∀ i, i < s.ctx.maxSuberNum.toNat → (s.suber i).occupied

/-- A call that leaves the slots and the count leaves no trace. -/
theorem refused_of_same (hs : ∀ i, s'.suber i = s.suber i) (hsid : s'.sid = s.sid)
    (hmax : s'.ctx.maxSuberNum = s.ctx.maxSuberNum) (hcur : s'.ctx.curSuberNum = s.ctx.curSuberNum)
    (args : EvtSubArgs) : s.Refused s' args where
  occupied i := by rw [hs i]
  count := hcur
  kept i _ := ⟨hs i, by rw [hsid]⟩
  room := by
    have hocc : s'.ctx.occupiedNum = s.ctx.occupiedNum := Ctx.occupiedNum_congr hmax fun i => congrArg Suber.args (hs i)
    rw [Ctx.room, Ctx.room, hocc, hmax, hcur]
  key i hk := by
    rw [hs i] at hk
    exact hk

/-- What the step of a `subEVT` call does. -/
inductive SubCall (s s' : State abi) (f : SubFrame) (env : Env) : TosResult → Prop
  | full (hc : s.ctx.curSuberNum ≥ s.ctx.maxSuberNum) (hs : ∀ i, s'.suber i = s.suber i) (hsid : s'.sid = s.sid)
      (hcur : s'.ctx.curSuberNum = s.ctx.curSuberNum) : SubCall s s' f env .notEnoughResource
  | noSlot (ho : ∀ i, i < s.ctx.maxSuberNum.toNat → (s.suber i).occupied) (hs : ∀ i, s'.suber i = s.suber i)
      (hsid : s'.sid = s.sid) (hcur : s'.ctx.curSuberNum = s.ctx.curSuberNum) : SubCall s s' f env .notTestedBug
  | filled {k} (hc : ¬ s.ctx.curSuberNum ≥ s.ctx.maxSuberNum) (hk : k < s.ctx.maxSuberNum.toNat)
      (ho : ¬ (s.suber k).occupied)
      (hx : s'.suber k = if env.malloc then .ofArgsCopied f.pEvtSubArgs else .ofArgs f.pEvtSubArgs)
      (hne : ∀ j, j ≠ k → s'.suber j = s.suber j)
      (hcur : s'.ctx.curSuberNum = if env.malloc then s.ctx.curSuberNum + 1 else s.ctx.curSuberNum) :
      SubCall s s' f env (if env.malloc then .success else .notTestedBug)

/-- A call that has returned took one of these ways. -/
theorem subCall_of_return (hA : AllocInv s) (h : Trans s t (.run env) s') (hret : Returns s s' t (.sub f) r) :
    SubCall s s' f env r := by
  have hres := hret.result
  obtain ⟨rest, hf⟩ : ∃ rest, s.frames t = .sub f :: rest := ⟨_, hret.top⟩
  have hmax : s.ctx.allocSubers.maxSuberNum = s.ctx.maxSuberNum := by rw [Ctx.allocSubers_eq]
  cases h with
  | subFull hf₀ hm hc =>
    obtain rfl : r = .notEnoughResource := by simpa [State.ret] using hres.symm
    exact .full hc (fun _ => rfl) rfl rfl
  | subNoSlot hf₀ hm hm' hc hi =>
    obtain rfl : r = .notTestedBug := by simpa [State.ret] using hres.symm
    refine .noSlot (fun i hlt => ?_) (fun i => by simp [State.suber, hA.allocSubers]) rfl rfl
    have hocc := Ctx.freeSuberIdx_eq_none.mp hi i (by rw [hmax]; exact hlt)
    rw [hA.allocSubers] at hocc
    exact hocc
  | @subFill _ f₀ rest₀ m i hf₀ hm hc hi =>
    obtain ⟨rfl, -⟩ : f₀ = f ∧ rest₀ = rest := by simpa using hf₀.symm.trans hf
    obtain rfl : r = if env.malloc then .success else .notTestedBug := by simpa [State.ret] using hres.symm
    obtain ⟨hlt, ho⟩ := Ctx.freeSuberIdx_eq_some hi
    rw [hA.allocSubers] at ho
    rw [hmax] at hlt
    refine .filled hc hlt ho (by simp [State.suber, State.ret]) (fun j hj => ?_) rfl
    simp [State.suber, State.ret, hj, hA.allocSubers]
  | halt => exact absurd hret.top.symm (by simp)
  | _ => simp_all

/-- A free slot leaves room in the table. -/
theorem Ctx.occupiedNum_lt {c : Ctx abi} (hi : i < c.maxSuberNum.toNat) (ho : ¬ (c.pEvtSubers i).occupied) :
    c.occupiedNum < c.maxSuberNum.toNat := by
  refine lt_of_le_of_ne c.occupiedNum_le fun h => ?_
  exact ho (Ctx.occupiedNum_eq_max.mp h i hi)

/-- The slot that was filled is occupied when the subscription has a callback. -/
theorem SubCall.occupied_filled (hcb : f.pEvtSubArgs.cbProcEvtF ≠ NULL)
    (hx : s'.suber i = if env.malloc then .ofArgsCopied f.pEvtSubArgs else .ofArgs f.pEvtSubArgs) :
    (s'.suber i).occupied := by
  rw [hx]
  cases env.malloc
  · exact hcb
  · exact hcb

/-- **The room is the number of subscriptions that can succeed.**  A call succeeds when there is room and memory, and
takes one place. -/
theorem subEVT_room (hr : Reach ok maxSuberNum clients s) (hcb : f.pEvtSubArgs.cbProcEvtF ≠ NULL)
    (hn : next s (t, .run env) = some s') (hret : Returns s s' t (.sub f) r) :
    (r = .success ↔ 0 < s.ctx.room ∧ env.malloc = true) ∧ (r = .success → s'.ctx.room + 1 = s.ctx.room) := by
  have htrans := (next_trans hn).2
  have hmax := htrans.maxSuberNum_eq
  unfold Ctx.room
  cases subCall_of_return (allocInv_reach hr) htrans hret with
  | full hc =>
    have hle : s.ctx.maxSuberNum.toNat ≤ s.ctx.curSuberNum.toNat := hc
    refine ⟨iff_of_false (by simp) ?_, by simp⟩
    omega
  | noSlot ho =>
    have hfull := Ctx.occupiedNum_eq_max.mpr ho
    refine ⟨iff_of_false (by simp) ?_, by simp⟩
    omega
  | filled hc hi ho hx hne hcur =>
    have hlt : s.ctx.curSuberNum.toNat < s.ctx.maxSuberNum.toNat := BitVec.lt_def.mp (BitVec.not_le.mp hc)
    have hfree := Ctx.occupiedNum_lt hi ho
    have hocc := Ctx.occupiedNum_fill hmax hi ho (SubCall.occupied_filled hcb hx) fun j hj => congrArg Suber.args (hne j hj)
    have hbound := s.ctx.maxSuberNum.isLt
    cases hml : env.malloc with
    | false => exact ⟨iff_of_false (by simp) (by simp), by simp⟩
    | true =>
      rw [hml, if_pos rfl] at hcur
      have hnat : s'.ctx.curSuberNum.toNat = s.ctx.curSuberNum.toNat + 1 := by
        rw [hcur]
        exact WrapRing.toNat_add_one (by omega) rfl
      refine ⟨iff_of_true (by simp) ⟨by omega, rfl⟩, fun _ => ?_⟩
      rw [hmax, hocc, hnat]
      omega

/-- **Failed subscriptions.**  In a reachable state a `subEVT` with a callback that fails leaves the table, the count
and the room as they were, and its pair unknown to `unsubEVT`, exactly when it does not come to a `malloc` that
fails. -/
theorem subEVT_failure_iff (hr : Reach ok maxSuberNum clients s) (hcb : f.pEvtSubArgs.cbProcEvtF ≠ NULL)
    (hn : next s (t, .run env) = some s') (hret : Returns s s' t (.sub f) r) :
    (r ≠ .success → s.Refused s' f.pEvtSubArgs) ↔ s.mallocFits env := by
  have htrans := (next_trans hn).2
  cases subCall_of_return (allocInv_reach hr) htrans hret with
  | full hc hs hsid hcur =>
    exact iff_of_true (fun _ => refused_of_same hs hsid htrans.maxSuberNum_eq hcur _) (.inr (.inl hc))
  | noSlot ho hs hsid hcur =>
    exact iff_of_true (fun _ => refused_of_same hs hsid htrans.maxSuberNum_eq hcur _) (.inr (.inr ho))
  | filled hc hi ho hx =>
    cases hml : env.malloc with
    | true => exact iff_of_true (by simp) (.inl hml)
    | false =>
      -- the slot stays occupied, and nobody counts it
      refine iff_of_false (fun h => ?_) ?_
      · have hrefused := h (by simp)
        exact ho ((hrefused.occupied _).mp (SubCall.occupied_filled hcb hx))
      · rintro (hm | hfull | hall)
        · simp [hml] at hm
        · exact hc hfull
        · exact ho (hall _ hi)

/-- The `subEVT` call in progress, when it is the only frame of its thread. -/
def State.onlySub (s : State abi) (t : Tid) : Option SubFrame :=
  match s.frames t with
  | [.sub f] => some f
  | _ => none

theorem State.onlySub_eq_some : s.onlySub t = some f ↔ s.frames t = [.sub f] := by
  unfold State.onlySub
  split <;> simp_all

/-- The first subscription of a run fails for want of memory: its slot is taken, the count is zero, and `unsubEVT`
finds the pair. -/
theorem failed_subEVT_keeps_slot :
    ∃ s s' : State lp64, Reach (fun _ _ => True) (initMaxSuberNum lp64) 1 s ∧
      next s (0, .run { malloc := false }) = some s' ∧
      Returns s s' 0 (.sub ⟨⟨1, 1, some [7]⟩, 0⟩) .notTestedBug ∧ (s'.suber 0).occupied ∧
      s'.ctx.curSuberNum = 0 ∧ ¬ s.Refused s' ⟨1, 1, some [7]⟩ := by
  have hr : @Reach lp64 (fun _ _ => True) (initMaxSuberNum lp64) 1 _ :=
    Runs.ReachUnder.refl.tail (0, .call (.subEVT ⟨1, 1, some [7]⟩)) trivial rfl
  refine ⟨_, _, hr, rfl, ⟨rfl, rfl, rfl⟩, by decide, rfl, fun h => ?_⟩
  exact absurd ((h.occupied 0).mp (by decide)) (by decide)

/-- A table of two slots is full, and a third subscription is refused: the two that are there are kept. -/
theorem subEVT_failure_iff_full :
    ∃ (s s' : State lp64) (f : SubFrame), Returns s s' 0 (.sub f) .notEnoughResource ∧ s.ctx.occupiedNum = 2 ∧
      (s'.suber 0).args = ⟨1, 1, some [7]⟩ ∧ (s'.suber 1).args = ⟨2, 2, some [8]⟩ ∧ s.Refused s' f.pEvtSubArgs := by
  obtain ⟨s, hr, hs⟩ := reach_of_run (fun _ _ => True) (2 : ULong lp64) 1
    [(0, .call (.subEVT ⟨1, 1, some [7]⟩)), (0, .go), (0, .call (.subEVT ⟨2, 2, some [8]⟩)), (0, .go),
      (0, .call (.subEVT ⟨3, 3, some [9]⟩))]
    (fun s : State lp64 => (s.onlySub 0).any fun f : SubFrame => (next s (0, .run { malloc := false })).any fun s' : State lp64 =>
      decide (f.pEvtSubArgs = ⟨3, 3, some [9]⟩) && s'.returned 0 .notEnoughResource &&
        decide (s.ctx.curSuberNum ≥ s.ctx.maxSuberNum) && s.ctx.occupiedNum == 2 &&
        decide ((s'.suber 0).args = ⟨1, 1, some [7]⟩) && decide ((s'.suber 1).args = ⟨2, 2, some [8]⟩))
    (by decide +kernel)
  simp only [Option.any_eq_true, State.onlySub_eq_some, Bool.and_eq_true, decide_eq_true_eq, beq_iff_eq] at hs
  obtain ⟨f, hf, s', hn, ⟨⟨⟨⟨hargs, hreturned⟩, hfull⟩, hocc⟩, h0⟩, h1⟩ := hs
  have hret := returns_of_returned hf rfl hreturned
  have hcb : f.pEvtSubArgs.cbProcEvtF ≠ NULL := by
    rw [hargs]
    decide
  exact ⟨s, s', f, hret, hocc, h0, h1, (subEVT_failure_iff hr hcb hn hret).mpr (.inr (.inl hfull)) (by decide)⟩

end PlatIF.Ioc
