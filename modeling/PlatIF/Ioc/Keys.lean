import PlatIF.Ioc.UnsubScan
import PlatIF.Ioc.SubFailure
import PlatIF.Ioc.Slots

/-!
# The pair of a callback and its private pointer

`unsubEVT` takes the pair `CbProcEvt_F`, `pCbPriv` for the name of a subscription and frees one slot, but `subEVT` does
not look whether a subscription has the pair already.

* `uniqueKeys_reach` — while no `subEVT` runs for a pair that is subscribed, a pair is in one slot at most;
* `silent_of_unsub` — then no slot has the pair once `unsubEVT` has succeeded;
* `keys_silent` — and its callback is not called any more until the pair is subscribed again;
* `key_called_after_unsub` — with two subscriptions of one pair it is.
-/

namespace PlatIF.Ioc

variable {abi : Abi} {s s' s₁ s₂ : State abi} {t u : Tid} {a : Act abi} {i j : ℕ} {k : EvtUnsubArgs} {r : TosResult}
  {rest : List (Frame abi)} {maxSuberNum : ULong abi} {clients : ℕ}

/-- The pair that a `subEVT` call subscribes. -/
def SubFrame.key (f : SubFrame) : EvtUnsubArgs := ⟨f.pEvtSubArgs.cbProcEvtF, f.pEvtSubArgs.pCbPriv⟩

/-- The pair that a callback is called with. -/
def CbFrame.key (c : CbFrame abi) : EvtUnsubArgs := ⟨c.cbProcEvtF, c.pCbPriv⟩

/-- A subscription in the table has the pair. -/
def State.Subscribed (s : State abi) (k : EvtUnsubArgs) : Prop :=
  ∃ i, i < s.ctx.maxSuberNum.toNat ∧ (s.suber i).occupied ∧ (s.suber i).hasKey k

instance (s : State abi) (k : EvtUnsubArgs) : Decidable (s.Subscribed k) :=
  inferInstanceAs (Decidable (∃ i, i < s.ctx.maxSuberNum.toNat ∧ (s.suber i).occupied ∧ (s.suber i).hasKey k))

/-- The step is not that of a `subEVT` call for a pair that is subscribed. -/
def freshKey (s : State abi) (x : Tid × Act abi) : Bool :=
  match s.frames x.1 with
  | .sub f :: _ => !decide (s.Subscribed f.key)
  | _ => true

/-- The pair that the step fills a slot with. -/
def fillsKey (s : State abi) (x : Tid × Act abi) : Option EvtUnsubArgs :=
  match s.frames x.1, x.2 with
  | .sub f :: _, .run env =>
    match subEVT s.ctx x.1 f.pEvtSubArgs env with
    | .ret _ _ (some _) => some f.key
    | _ => none
  | _, _ => none

/-- A pair is in one slot at most. -/
def UniqueKeys (s : State abi) : Prop :=
  ∀ i j k, (s.suber i).occupied → (s.suber i).hasKey k → (s.suber j).hasKey k → i = j

/-- No subscription has the pair. -/
def Silent (s : State abi) (k : EvtUnsubArgs) : Prop := ∀ i, (s.suber i).occupied → ¬ (s.suber i).hasKey k

/-- In the step, thread `u` calls a callback. -/
def Calls (s s' : State abi) (u : Tid) (c : CbFrame abi) : Prop :=
  (s.frames u).length < (s'.frames u).length ∧ s'.topCb u = some c

/-! ### From step to step -/

/-- A subscription of a step's end was there before, or is the one that `subEVT` has just made. -/
theorem ArgsStep.occupied_cases (h : ArgsStep s s' t a) (ho : (s'.suber i).occupied) :
    (s'.suber i).args = (s.suber i).args ∨
      ∃ f rest, s.frames t = .sub f :: rest ∧ ¬ (s.suber i).occupied ∧ (∀ k, (s'.suber i).hasKey k → k = f.key) ∧
        ∀ j, j ≠ i → (s'.suber j).args = (s.suber j).args := by
  cases h with
  | same ha | clear _ _ _ ha => exact .inl (ha i)
  | @fill env f rest m hf _ _ _ hfree hx hne _ =>
    by_cases hi : i = m
    · subst hi
      refine .inr ⟨f, rest, hf, hfree, fun k hk => ?_, hne⟩
      cases k
      simp only [Suber.hasKey, hx] at hk
      simp [SubFrame.key, hk.1, hk.2]
    · exact .inl (hne i hi)
  | @freeNext f rest m _ _ _ _ hx hne | @freeDone f rest m _ _ _ _ _ hx hne =>
    by_cases hi : i = m
    · subst hi
      exact absurd ho (by rw [Suber.occupied_congr hx]; exact Suber.freed_occupied _)
    · exact .inl (hne i hi)

theorem Suber.occupied_of_hasKey {x y : Suber abi} (ho : x.occupied) (hx : x.hasKey k) (hy : y.hasKey k) :
    y.occupied := by
  rw [Suber.occupied, hy.1, ← hx.1]
  exact ho

theorem uniqueKeys_step (hlt : ∀ j, (s.suber j).occupied → j < s.ctx.maxSuberNum.toNat) (hU : UniqueKeys s)
    (hok : freshKey s (t, a) = true) (h : ArgsStep s s' t a) : UniqueKeys s' := by
  -- a new subscription has a pair that no other slot has
  have hnew : ∀ {i j k}, (s'.suber i).occupied → (s'.suber i).hasKey k → (s'.suber j).hasKey k → j ≠ i →
      (s'.suber i).args = (s.suber i).args := fun {i j k} ho hi hj hji => by
    refine (h.occupied_cases ho).resolve_right ?_
    rintro ⟨f, rest, hf, -, hkey, hne⟩
    have hj' := (Suber.hasKey_congr (hne j hji)).mp hj
    have ho' := (Suber.occupied_congr (hne j hji)).mp (Suber.occupied_of_hasKey ho hi hj)
    simp only [freshKey, hf, Bool.not_eq_true', decide_eq_false_iff_not] at hok
    exact hok ⟨j, hlt j ho', ho', hkey k hi ▸ hj'⟩
  intro i j k ho hi hj
  by_contra hij
  have hai := hnew ho hi hj (Ne.symm hij)
  have haj := hnew (Suber.occupied_of_hasKey ho hi hj) hj hi hij
  exact hij (hU i j k ((Suber.occupied_congr hai).mp ho) ((Suber.hasKey_congr hai).mp hi)
    ((Suber.hasKey_congr haj).mp hj))

theorem uniqueKeys_reach (h : Reach (fun s x => freshKey s x = true) maxSuberNum clients s) : UniqueKeys s := by
  refine h.induction (fun i j k ho => ?_) fun s s' t a hr hU hok _ h => ?_
  · simp [State.init, State.suber, Ctx.init, Suber.zero, Suber.occupied] at ho
  · refine uniqueKeys_step (fun j ho => ?_) hU hok (h.argsStep (allocInv_reach hr))
    rw [maxSuberNum_reach hr]
    exact occupied_lt_reach hr j ho

/-! ### After `unsubEVT` -/

/-- When `unsubEVT` has succeeded, no subscription has the pair. -/
theorem silent_of_unsub {f : UnsubFrame} (hlt : ∀ j, (s.suber j).occupied → j < s.ctx.maxSuberNum.toNat)
    (hU : UniqueKeys s) (hS : ScanInv s) (hf : s.frames t = .unsub f :: rest) (hk : f.pEvtUnsubArgs = some k)
    (h : UnsubRet s s' t f .success) : Silent s' k := by
  intro j ho hj
  cases h with
  | noTable _ _ hr => simp at hr
  | @freed i k' hk' _ hi _ hc _ =>
    obtain rfl : k = k' := Option.some.inj (hk.symm.trans hk')
    by_cases hji : j = i
    · subst hji
      rw [State.suber, hc, Function.update_self] at ho
      exact Suber.freed_occupied _ ho
    · have hslot : s'.suber j = s.suber j := by rw [State.suber, hc, Function.update_of_ne hji]
      exact hji (hU j i k (hslot ▸ ho) (hslot ▸ hj) hi)
  | @ended i hp hi _ hc =>
    have hslot : s'.suber j = s.suber j := by rw [State.suber, hc]
    exact hS t f rest k i hf hk (by rw [hp]; rfl) j ((hlt j (hslot ▸ ho)).trans_le hi) (hslot ▸ hj)

/-- A `subEVT` step that fills no slot leaves the arguments of all. -/
theorem args_of_fillsKey_none {f : SubFrame} (hA : AllocInv s) (hn : next s (t, a) = some s')
    (hf : s.frames t = .sub f :: rest) (hk : fillsKey s (t, a) ≠ some f.key) (j : ℕ) :
    (s'.suber j).args = (s.suber j).args := by
  have hs := (next_trans hn).1
  cases a with
  | run env =>
    simp only [next, State.step, hs, hf, State.subStep] at hn
    simp only [fillsKey, hf] at hk
    cases ho : subEVT s.ctx t f.pEvtSubArgs env with
    | blocked => simp [ho] at hn
    | abort =>
      simp only [ho] at hn
      obtain rfl := Option.some.inj hn
      rfl
    | ret r c filled =>
      cases filled with
      | some i => simp [ho] at hk
      | none =>
        simp only [ho] at hn
        obtain rfl := Option.some.inj hn
        have hc : c.pEvtSubers = s.ctx.pEvtSubers := by
          unfold subEVT at ho
          split at ho
          · simp at ho
          · split at ho
            · simp only [SubOutcome.ret.injEq] at ho
              rw [← ho.2.1]
            · split at ho
              · simp at ho
              · split at ho
                · simp only [SubOutcome.ret.injEq] at ho
                  rw [← ho.2.1]
                  exact hA.allocSubers
                · split at ho <;> simp at ho
        simp [State.suber, hc]
  | _ => simp [next, State.step, hs, hf, State.subStep] at hn

theorem silent_step (hA : AllocInv s) (hS : Silent s k) (hn : next s (t, a) = some s')
    (hk : fillsKey s (t, a) ≠ some k) : Silent s' k := by
  intro i ho hi
  have hkeep : (s'.suber i).args = (s.suber i).args → False := fun ha =>
    hS i ((Suber.occupied_congr ha).mp ho) ((Suber.hasKey_congr ha).mp hi)
  rcases ((next_trans hn).2.argsStep hA).occupied_cases ho with ha | ⟨f, rest, hf, -, hkey, -⟩
  · exact hkeep ha
  · obtain rfl := hkey k hi
    exact hkeep (args_of_fillsKey_none hA hn hf hk i)

/-- A callback is that of a subscription. -/
theorem Trans.calls {c : CbFrame abi} (h : Trans s t a s') (hc : Calls s s' u c) :
    ∃ i, (s.suber i).occupied ∧ (s.suber i).hasKey c.key := by
  obtain ⟨hlen, htop⟩ := hc
  by_cases hu : u = t
  · subst hu
    cases h
    case asyncCall i g d hf hb ho =>
      simp only [State.topCb, State.obs, State.setFrames, Function.update_self, Option.some.injEq] at htop
      subst htop
      exact ⟨i, ho, rfl, rfl⟩
    case postSync i hf hp hi hl hs =>
      simp only [State.topCb, State.obs, State.setFrames, Function.update_self, Option.some.injEq] at htop
      subst htop
      exact ⟨i, EvtSubArgs.cb_ne_null_of_lists hl, rfl, rfl⟩
    case call api _ => cases api <;> simp [State.topCb, State.frameOf] at htop
    case unsubSignal hf _ hw | postSignal hf _ hw | postRetrySignal hf _ hw => simp [hf] at hlen
    case asyncReplay hf hb hc => simp [State.topCb] at htop
    all_goals
      clear htop
      simp [*] at hlen
  · rw [h.frames_ne hu] at hlen
    exact absurd hlen (lt_irrefl _)

/-! ### The contract of the pair -/

/-- A result that may say that the pair is subscribed already.  `TOS_RESULT_ALREADY_SUBSCRIBED`, which the interface
names, is not in the enumeration: `TOS_RESULT_ALREADY` is, and any other number may come back. -/
def saysSubscribed : TosResult → Bool
  | .already | .other _ => true
  | _ => false

/-- `subEVT` returns no such result. -/
theorem sub_result {f : SubFrame} (hA : AllocInv s) (hn : next s (t, a) = some s')
    (hret : Returns s s' t (.sub f) r) : saysSubscribed r = false := by
  obtain ⟨hs, h⟩ := next_trans hn
  cases a with
  | run env =>
    cases subCall_of_return hA h hret with
    | full | noSlot => rfl
    | filled => cases env.malloc <;> rfl
  | _ => simp [next, State.step, hs, hret.top, State.subStep] at hn

/-- The calls of the step have a callback. -/
def withCallback (s : State abi) (x : Tid × Act abi) : Bool :=
  match s.frames x.1 with
  | .sub f :: _ => f.pEvtSubArgs.cbProcEvtF != NULL
  | .unsub f :: _ => f.pEvtUnsubArgs.all fun k => k.cbProcEvtF != NULL
  | _ => true

end PlatIF.Ioc
