import PlatIF.Ioc.Count

/-!
# The search of `unsubEVT` by key

`unsubEVT` with a key goes over the slots under the context mutex and stops at the first that has the key.

* `scanInv_reach` — the slots it has passed do not have the key;
* `Trans.unsubRet` — how a call returns: with no table, with the slot freed, or at the end of the table.
-/

namespace PlatIF.Ioc

variable {abi : Abi} {s s' : State abi} {t u : Tid} {a : Act abi} {i : ℕ} {f : UnsubFrame} {k : EvtUnsubArgs}
  {r : TosResult} {rest : List (Frame abi)} {ok : State abi → Tid × Act abi → Prop} {maxSuberNum : ULong abi}
  {clients : ℕ}

theorem Suber.hasKey_congr {x y : Suber abi} (h : y.args = x.args) : y.hasKey k ↔ x.hasKey k := by
  rw [Suber.hasKey, Suber.hasKey, h]

theorem UnsubFrame.picks_some (hk : f.pEvtUnsubArgs = some k) (x : Suber abi) : f.picks x ↔ x.hasKey k := by
  rw [UnsubFrame.picks, hk]

/-! ### The slots passed -/

/-- The slots that a search by key has passed do not have the key. -/
def ScanInv (s : State abi) : Prop :=
  ∀ t f rest k i, s.frames t = .unsub f :: rest → f.pEvtUnsubArgs = some k → f.pc.idx = some i →
    ∀ j, j < i → ¬ (s.suber j).hasKey k

theorem scan_self (hT : ThreadInv s) (hA : AllocInv s) (hS : ScanInv s) (h : Trans s t a s')
    (hf : s'.frames t = .unsub f :: rest) (hk : f.pEvtUnsubArgs = some k) (hi : f.pc.idx = some i) (j : ℕ)
    (hj : j < i) : ¬ (s'.suber j).hasKey k := by
  have hargs : ∀ {g : UnsubFrame}, s.frames t = .unsub g :: rest → f.pEvtUnsubArgs = g.pEvtUnsubArgs →
      ¬ (s.suber j).hasKey k → ¬ (s'.suber j).hasKey k := fun hg he hno =>
    mt (Suber.hasKey_congr (args_of_unsub hg (he.symm.trans hk) hf (h.argsStep hA) j)).mp hno
  cases h.unsubStep (hT.stack t) hf with
  | called hp => simp [hp, UnsubPc.idx] at hi
  | locked _ _ _ _ hp' _ =>
    simp only [hp', UnsubPc.idx, Option.some.injEq] at hi
    omega
  | stays hf₀ he hi₀ => exact hargs hf₀ he (hS t _ _ k i hf₀ (he.symm.trans hk) (hi₀.symm.trans hi) j hj)
  | @skipped g m hf₀ he hp hp' hno =>
    simp only [hp', UnsubPc.idx, Option.some.injEq] at hi
    rcases Nat.lt_or_ge j m with hjm | hjm
    · exact hargs hf₀ he (hS t _ _ k m hf₀ (he.symm.trans hk) (by rw [hp]; rfl) j hjm)
    · obtain rfl : j = m := by omega
      exact hargs hf₀ he (mt (UnsubFrame.picks_some (he.symm.trans hk) _).mpr hno)
  | freed _ he _ _ hn => simp [he.symm.trans hk] at hn

theorem scanInv_reach (h : Reach ok maxSuberNum clients s) : ScanInv s := by
  refine h.induction (fun t f rest k i hf => ?_) fun s s' t a hr hS _ _ h => ?_
  · simp [State.init] at hf
  · intro u f rest k i hf hk hi j hj
    by_cases hu : u = t
    · subst hu
      exact scan_self (threadInv_reach hr) (allocInv_reach hr) hS h hf hk hi j hj
    · rw [h.frames_ne hu] at hf
      have hL := lockInv_reach hr
      have hs := h.sameTable hL hu (hL.unsub_holder hf (UnsubPc.idx_ne_lock hi))
      rw [Suber.hasKey_congr (hs.slot j).args]
      exact hS u f rest k i hf hk hi j hj

/-! ### The return -/

/-- The `unsubEVT` call in progress, when it is the only frame of its thread. -/
def State.onlyUnsub (s : State abi) (t : Tid) : Option UnsubFrame :=
  match s.frames t with
  | [.unsub f] => some f
  | _ => none

theorem State.onlyUnsub_eq_some : s.onlyUnsub t = some f ↔ s.frames t = [.unsub f] := by
  unfold State.onlyUnsub
  split <;> simp_all

/-- How a call of `unsubEVT` returns. -/
inductive UnsubRet (s s' : State abi) (t : Tid) (f : UnsubFrame) (r : TosResult) : Prop
  | noTable (hp : f.pc = .lock) (ha : s.ctx.isAlloced = false) (hr : r = .notFound) (hc : s'.ctx = s.ctx)
      (hsid : s'.sid = s.sid) (hn : s'.nextSid = s.nextSid)
  | freed {i : ℕ} {k : EvtUnsubArgs} (hk : f.pEvtUnsubArgs = some k) (hs : s.slotStopped t f i)
      (hkey : (s.suber i).hasKey k) (hr : r = .success)
      (hc : s'.ctx.pEvtSubers = Function.update s.ctx.pEvtSubers i (s.suber i).freed) (hsid : s'.sid = s.sid)
  | ended {i : ℕ} (hp : f.pc = .scan i) (hi : s.ctx.maxSuberNum.toNat ≤ i) (hr : r = .success)
      (hc : s'.ctx.pEvtSubers = s.ctx.pEvtSubers)

theorem State.slotStopped.idx (hs : s.slotStopped t f i) : f.pc.idx = some i := by
  rcases hs with ⟨hp, -⟩ | ⟨hp, -⟩ <;> rw [hp] <;> rfl

theorem State.slotStopped.picks (hH : HolderInv s) (hf : s.frames t = .unsub f :: rest) (hs : s.slotStopped t f i) :
    f.picks (s.suber i) := by
  rcases hs with ⟨-, -, hp, -⟩ | ⟨hp, -⟩
  · exact hp
  · exact (hH.unsub t f rest i hf (by rw [hp]; rfl)).picks

theorem Trans.unsubRet (hH : HolderInv s) (h : Trans s t a s') (hret : Returns s s' t (.unsub f) r) :
    UnsubRet s s' t f r := by
  obtain ⟨htop, -, hres⟩ := hret
  have hlen := congrArg List.length htop
  have hf : ∀ {g : Frame abi} {rest}, s.frames t = g :: rest → g = .unsub f := fun hg =>
    (List.cons.inj (hg.symm.trans htop)).1
  have hw : ∀ {g : UnsubFrame} {rest}, s.frames t = .unsub g :: rest → g = f := fun hg => by simpa using hf hg
  cases h
  case unsubNotFound hf' hp _ ha =>
    obtain rfl := hw hf'
    exact .noTable hp ha (by simpa using hres.symm) rfl rfl rfl
  case unsubEnd hf' hp hi =>
    obtain rfl := hw hf'
    exact .ended hp (Nat.le_of_not_lt hi) (by simpa using hres.symm) rfl
  case unsubFreeDone hf' hs hk =>
    obtain rfl := hw hf'
    exact .freed hk hs ((UnsubFrame.picks_some hk _).mp (hs.picks hH hf')) (by simpa using hres.symm) rfl rfl
  case subFull hf' _ _ | subNoSlot hf' _ _ _ _ | subFill hf' _ _ _ | postNotFound hf' _ _ _ | postBusy hf' _ _ _ |
      postCache hf' _ _ _ _ _ _ | postCacheFull hf' _ _ _ _ _ _ | postEnd hf' _ _ | cbRetPost hf' _ |
      cbRetAsync hf' _ => exact absurd (hf hf') (by simp)
  -- the other steps do not make the stack shorter
  case call =>
    simp only [State.setFrames, Function.update_self, List.length_cons] at hlen
    omega
  all_goals
    clear htop hf hw hres
    simp [*] at hlen

end PlatIF.Ioc
