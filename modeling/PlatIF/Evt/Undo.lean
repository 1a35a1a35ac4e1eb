import PlatIF.Evt.Integrity

/-!
# Withdrawing all of an operator's rows

The tables hold one row for each `subEvts` and `pubEvts`, and the loops of `unsubEvts` and `unpubEvts` leave at the first
row of the operator.

* `Table.removeFirst` — what the two loops do to their table;
* `SubsUndone`, `PubsUndone` — no row of the operator is left, and the rows of the others are as they were;
* `FillsKept` — nor is a row gone that is still being filled in for another;
* `undone_iff` — it is so exactly when the operator has at most one row.
-/

namespace PlatIF.Evt

variable {abi : Abi} {s s' : State abi} {t : Thread} {a : Act abi} {env : Env} {clients : ℕ}
  {ok : State abi → Thread × Act abi → Prop} {id : EvtOperID abi}

/-! ### The loops -/

namespace Table

variable {α : Type*} {tab : Table α} {max i j : ℕ} {p : α → Bool} {x : α}

/-- The first entry below `max` that meets `p` is cleared. -/
def removeFirst (tab : Table α) (max : ℕ) (p : α → Bool) : Table α :=
  match tab.first max p with
  | none => tab
  | some i => tab.set i none

/-- What does not meet `p` stays. -/
theorem removeFirst_keeps (hx : p x = false) : (tab.removeFirst max p).entry i = some x ↔ tab.entry i = some x := by
  unfold removeFirst
  split
  · rfl
  · rename_i k hk
    obtain ⟨-, y, hy, hpy⟩ := first_eq_some hk
    by_cases hik : i = k
    · subst hik
      have hne : y ≠ x := fun h => by simp [h, hx] at hpy
      simp [Table.set, hy, hne]
    · simp [Table.set, Function.update_of_ne hik]

/-- What is left was there. -/
theorem of_removeFirst (h : (tab.removeFirst max p).entry i = some x) : tab.entry i = some x := by
  cases hx : p x with
  | false => exact (removeFirst_keeps hx).mp h
  | true =>
    unfold removeFirst at h
    split at h
    · exact h
    · rcases set_eq_some h with ⟨-, hnone⟩ | hold
      · simp at hnone
      · exact hold

/-- **No entry is left exactly when there is at most one.** -/
theorem removeFirst_clears_iff :
    (∀ i x, i < max → (tab.removeFirst max p).entry i = some x → p x = false) ↔
      ∀ i j x y, i < max → j < max → tab.entry i = some x → tab.entry j = some y → p x = true → p y = true →
        i = j := by
  unfold removeFirst
  cases hf : tab.first max p with
  | none =>
    refine iff_of_true (fun i x hi hx => first_eq_none hf hi hx) fun i j x y hi _ hx _ hpx _ => ?_
    simp [first_eq_none hf hi hx] at hpx
  | some k =>
    obtain ⟨hk, z, hz, hpz⟩ := first_eq_some hf
    constructor
    · intro h
      -- an entry other than the cleared one does not meet `p`
      have hat : ∀ i x, i < max → tab.entry i = some x → p x = true → i = k := by
        intro i x hi hx hpx
        by_contra hik
        have hno := h i x hi (by simpa [Table.set, Function.update_of_ne hik] using hx)
        simp [hno] at hpx
      intro i j x y hi hj hx hy hpx hpy
      rw [hat i x hi hx hpx, hat j y hj hy hpy]
    · intro h i x hi hx
      by_contra hpx
      rcases set_eq_some hx with ⟨-, hnone⟩ | hold
      · simp at hnone
      · obtain rfl := h i k x z hi hk hold hz (by simpa using hpx) hpz
        simp [Table.set] at hx

/-! A table that may not be there has the same laws: it then has no entry. -/

section

variable {o o' : Option (Table α)} (ho : o' = o.map fun tab => tab.removeFirst max p)

include ho

theorem map_removeFirst_keeps (hx : p x = false) :
    (o'.bind fun tab => tab.entry i) = some x ↔ (o.bind fun tab => tab.entry i) = some x := by
  subst ho
  cases o with
  | none => exact Iff.rfl
  | some tab => exact removeFirst_keeps hx

theorem of_map_removeFirst (h : (o'.bind fun tab => tab.entry i) = some x) :
    (o.bind fun tab => tab.entry i) = some x := by
  subst ho
  cases o with
  | none => exact h
  | some tab => exact of_removeFirst h

theorem map_removeFirst_clears_iff :
    (∀ i x, i < max → (o'.bind fun tab => tab.entry i) = some x → p x = false) ↔
      ∀ i j x y, i < max → j < max → (o.bind fun tab => tab.entry i) = some x →
        (o.bind fun tab => tab.entry j) = some y → p x = true → p y = true → i = j := by
  subst ho
  cases o with
  | none => simp
  | some tab => exact removeFirst_clears_iff

end

end Table

namespace Manger

variable {m : Manger abi}

/-- The test of the loop of `unsubEvts`. -/
def isSubOf (id : EvtOperID abi) (r : Row abi) : Bool := r.roleType == .evtSuber && r.operID == id

theorem unsubEvts_subTable : (m.unsubEvts id).subTable =
    m.subTable.map fun tab => tab.removeFirst m.maySubEvtNumMax.toNat (isSubOf id) := by
  unfold unsubEvts Table.removeFirst isSubOf
  split
  · simp_all
  · rename_i tab htab
    rw [htab, Option.map_some]
    split <;> simp_all

theorem unpubEvts_pubTable : (m.unpubEvts id).pubTable =
    m.pubTable.map fun tab => tab.removeFirst m.mayPubEvtNumMax.toNat (isPubOf id) := by
  unfold unpubEvts Table.removeFirst isPubOf
  split
  · simp_all
  · rename_i tab htab
    rw [htab, Option.map_some]
    split <;> simp_all

/-- A subscription that `subEvts` inserts has the role of one. -/
theorem doSubEvts_role {ids : List EvtID} {args : EvtSubArgs} {row : ℕ} {r : Row abi}
    (h : (m.doSubEvts id ids args env).2.subRow row = some r) : m.subRow row = some r ∨ r.roleType = .evtSuber := by
  unfold doSubEvts at h
  split at h
  · exact .inl h
  · rename_i tab htab
    split at h
    · exact .inl h
    · split at h
      · exact .inl h
      · split at h
        · exact .inl h
        · rcases Table.set_eq_some h with ⟨-, hx⟩ | hold
          · exact .inr (by rw [← Option.some.inj hx])
          · exact .inl (by rw [subRow, htab]; exact hold)

end Manger

/-- Every row of the subscription table has the role of a subscription. -/
theorem subRole_reach (h : Reach ok clients s) : ∀ row r, s.manger.subRow row = some r → r.roleType = .evtSuber := by
  refine h.induction (P := fun s => ∀ row r, s.manger.subRow row = some r → r.roleType = .evtSuber)
    (fun row r hr => by simp [State.init, Manger.init, Manger.subRow] at hr) ?_
  intro s s' t a hreach hP _ _ htr row r hr
  cases htr with
  | table ha hc htab =>
    rcases (htab.subRow (tables_reach hreach) hr).2 with hold | ⟨hnone, ids, args, rfl⟩
    · exact hP row r hold
    · cases htab with
      | sub =>
        rcases Manger.doSubEvts_role hr with hold | hrole
        · exact hP row r hold
        · exact hrole
  | life ha hc hl =>
    rw [hl.tables] at hr
    exact hP row r hr
  | post | signal => exact hP row r (by simpa using hr)
  | _ => exact hP row r hr

/-! ### Calls to an operator -/

/-- The calls of callbacks with `EvtSuberID` `id`. -/
def callsOf (id : EvtOperID abi) (log : List (Obs abi)) : List (Obs abi) :=
  log.filter fun
    | .call _ _ evtSuberID _ _ => evtSuberID == id
    | _ => false

/-- The step inserts a subscription of the operator. -/
def State.subscribes (s : State abi) (id : EvtOperID abi) (x : Thread × Act abi) : Prop :=
  ∃ ids args env, s.calls x.1 = some (.subEvts id ids args true) ∧ x.2 = .run env

theorem callsOf_append {log os : List (Obs abi)} (h : callsOf id os = []) : callsOf id (log ++ os) = callsOf id log := by
  unfold callsOf at *
  rw [List.filter_append, h, List.append_nil]

/-- Without a row of the operator no step calls its callback. -/
theorem Trans.callsOf (hr : Reach ok clients s)
    (hno : ∀ row r, row < s.manger.maySubEvtNumMax.toNat → s.manger.subRow row = some r → r.operID ≠ id)
    (h : Trans s t a s') : Evt.callsOf id s'.log = Evt.callsOf id s.log := by
  cases h with
  | table ha hc htab =>
    refine callsOf_append ?_
    cases htab with
    | @reg args r id' m hm => cases id' <;> rfl
    | _ => rfl
  | @callSuber q slot k row num r args ht hc hp hrow hs =>
    have hlt : row < s.manger.maySubEvtNumMax.toNat := (loopInv_reach hr q slot k _ hp).1.1
    have hne := hno row r hlt hrow
    exact callsOf_append (by simp [Evt.callsOf, hne])
  | post | signal => simp [Evt.callsOf]
  | life ha hc hl =>
    rcases hl.log_eq with hlog | ⟨r, hlog⟩
    · rw [hlog]
    · rw [hlog]
      exact callsOf_append rfl
  | take | noTable | endDispatch | compare | cbRead => exact callsOf_append rfl
  | _ => rfl

/-- The operator stays without a row until it subscribes. -/
theorem silent_run (hr : Reach ok clients s)
    (hno : ∀ row r, row < s.manger.maySubEvtNumMax.toNat → s.manger.subRow row = some r → r.operID ≠ id)
    (h : Runs.ReachUnder next (fun s x => ¬ s.subscribes id x) s s') : callsOf id s'.log = callsOf id s.log := by
  have hreach : Reach (fun _ _ => True) clients s := hr.mono fun _ _ _ => trivial
  have hrun : callsOf id s'.log = callsOf id s.log ∧ Reach (fun _ _ => True) clients s' ∧
      ∀ row r, row < s'.manger.maySubEvtNumMax.toNat → s'.manger.subRow row = some r → r.operID ≠ id := by
    refine h.invariant (P := fun u => callsOf id u.log = callsOf id s.log ∧ Reach (fun _ _ => True) clients u ∧
      ∀ row r, row < u.manger.maySubEvtNumMax.toNat → u.manger.subRow row = some r → r.operID ≠ id)
      ⟨rfl, hreach, hno⟩ ?_
    intro u u' x _ hP hok hn
    obtain ⟨hlog, hru, hnu⟩ := hP
    have htr := (next_trans hn).2
    refine ⟨(htr.callsOf hru hnu).trans hlog, hru.tail x trivial hn, fun row r hlt hrow => ?_⟩
    obtain ⟨hlt₀, hold | ⟨-, ids, args, env, hc, ha⟩⟩ := htr.subRow (tables_reach hru) hlt hrow
    · exact hnu row r hlt₀ hold
    · intro hid
      exact hok ⟨ids, args, env, hid ▸ hc, ha⟩
  exact hrun.1

/-! ### What the two calls promise -/

/-- No subscription of the operator is left, those of the others are as they were, and its callback is not called until
it subscribes again. -/
structure SubsUndone (s s' : State abi) (id : EvtOperID abi) : Prop where
  gone : ∀ row r, row < s'.manger.maySubEvtNumMax.toNat → s'.manger.subRow row = some r → r.operID ≠ id
  others : ∀ row r, r.operID ≠ id → (s'.manger.subRow row = some r ↔ s.manger.subRow row = some r)
  silent : ∀ s'', Runs.ReachUnder next (fun s x => ¬ s.subscribes id x) s' s'' → callsOf id s''.log = callsOf id s'.log

/-- No publication of the operator is left, and those of the others are as they were. -/
structure PubsUndone (s s' : State abi) (id : EvtOperID abi) : Prop where
  gone : ∀ row r, row < s'.manger.mayPubEvtNumMax.toNat → s'.manger.pubRow row = some r → Manger.isPubOf id r = false
  others : ∀ row r, Manger.isPubOf id r = false → (s'.manger.pubRow row = some r ↔ s.manger.pubRow row = some r)

/-- The rows that calls of `pubEvts` for others are filling in are as they were. -/
def FillsKept (s s' : State abi) (id : EvtOperID abi) : Prop :=
  ∀ u id' ids row pRow pc r, s.calls u = some (.pubEvts id' ids (.fill row pRow pc)) → id' ≠ id →
    s.manger.pubRow row = some (pRow, r) → s'.manger.pubRow row = some (pRow, r)

/-- None of these rows reads as a publication of the operator; before its `EvtPuberID` is stored it reads as one of
operator 0. -/
def State.FillsApart (s : State abi) (id : EvtOperID abi) : Prop :=
  ∀ u id' ids row pRow pc r, s.calls u = some (.pubEvts id' ids (.fill row pRow pc)) → id' ≠ id →
    s.manger.pubRow row = some (pRow, r) → Manger.isPubOf id (pRow, r) = false

/-- The operator has at most one subscription. -/
def Manger.OneSub (m : Manger abi) (id : EvtOperID abi) : Prop :=
  ∀ i j r r', i < m.maySubEvtNumMax.toNat → j < m.maySubEvtNumMax.toNat → m.subRow i = some r → m.subRow j = some r' →
    r.operID = id → r'.operID = id → i = j

/-- The operator has at most one publication. -/
def Manger.OnePub (m : Manger abi) (id : EvtOperID abi) : Prop :=
  ∀ i j r r', i < m.mayPubEvtNumMax.toNat → j < m.mayPubEvtNumMax.toNat → m.pubRow i = some r → m.pubRow j = some r' →
    Manger.isPubOf id r = true → Manger.isPubOf id r' = true → i = j

/-- The step of an `unsubEvts`. -/
theorem unsubEvts_next (hc : s.calls t = some (.unsubEvts id)) (hn : next s (t, .run env) = some s') :
    s'.manger = s.manger.unsubEvts id := by
  cases (next_trans hn).2 with
  | table ha hc₀ htab =>
    rw [hc, Option.some.injEq] at hc₀
    subst hc₀
    cases htab with
    | unsub => rfl
  | life ha hc₀ hl =>
    obtain rfl := Option.some.inj (hc.symm.trans hc₀)
    cases hl
  | halt hh => cases hh <;> simp_all
  | _ => simp_all

/-- The step of an `unpubEvts`. -/
theorem unpubEvts_next (hc : s.calls t = some (.unpubEvts id)) (hn : next s (t, .run env) = some s') :
    s'.manger = s.manger.unpubEvts id := by
  cases (next_trans hn).2 with
  | table ha hc₀ htab =>
    rw [hc, Option.some.injEq] at hc₀
    subst hc₀
    cases htab with
    | unpub => rfl
  | life ha hc₀ hl =>
    obtain rfl := Option.some.inj (hc.symm.trans hc₀)
    cases hl
  | halt hh => cases hh <;> simp_all
  | _ => simp_all

theorem unsubEvts_undone_iff (hr : Reach ok clients s) (hc : s.calls t = some (.unsubEvts id))
    (hn : next s (t, .run env) = some s') : SubsUndone s s' id ↔ s.manger.OneSub id := by
  have hm := unsubEvts_next hc hn
  have hmax : s'.manger.maySubEvtNumMax = s.manger.maySubEvtNumMax := by
    rw [hm]
    exact (s.manger.unsubEvts_shape id).maySubEvtNumMax
  have htab : s'.manger.subTable = s.manger.subTable.map fun tab =>
      tab.removeFirst s.manger.maySubEvtNumMax.toNat (Manger.isSubOf id) := by
    rw [hm]
    exact Manger.unsubEvts_subTable
  have hr' : Reach (fun _ _ => True) clients s' := (hr.mono fun _ _ _ => trivial).tail (t, .run env) trivial hn
  -- the test of the loop is that the row is the operator's
  have htest : ∀ {row r}, s.manger.subRow row = some r → (Manger.isSubOf id r = true ↔ r.operID = id) := by
    intro row r hx
    simp [Manger.isSubOf, subRole_reach hr row r hx]
  have hclear := Table.map_removeFirst_clears_iff htab
  constructor
  · intro h i j r r' hi hj hri hrj hid hid'
    refine hclear.mp (fun row x hlt hx => ?_) i j r r' hi hj hri hrj ((htest hri).mpr hid) ((htest hrj).mpr hid')
    have hne := h.gone row x (by rwa [hmax]) hx
    rwa [← Bool.not_eq_true, htest (Table.of_map_removeFirst htab hx)]
  · intro h
    have hgone : ∀ row r, row < s'.manger.maySubEvtNumMax.toNat → s'.manger.subRow row = some r → r.operID ≠ id := by
      intro row r hlt hx
      rw [hmax] at hlt
      have hno := hclear.mpr (fun i j x y hi hj hx hy hpx hpy =>
        h i j x y hi hj hx hy ((htest hx).mp hpx) ((htest hy).mp hpy)) row r hlt hx
      rwa [← Bool.not_eq_true, htest (Table.of_map_removeFirst htab hx)] at hno
    refine ⟨hgone, fun row r hne => ?_, fun s'' hrun => silent_run hr' hgone hrun⟩
    exact Table.map_removeFirst_keeps htab (by simp [Manger.isSubOf, hne])

theorem unpubEvts_undone_iff (hc : s.calls t = some (.unpubEvts id)) (hn : next s (t, .run env) = some s') :
    PubsUndone s s' id ↔ s.manger.OnePub id := by
  have hm := unpubEvts_next hc hn
  have hmax : s'.manger.mayPubEvtNumMax = s.manger.mayPubEvtNumMax := by
    rw [hm]
    exact (s.manger.unpubEvts_shape id).mayPubEvtNumMax
  have htab : s'.manger.pubTable = s.manger.pubTable.map fun tab =>
      tab.removeFirst s.manger.mayPubEvtNumMax.toNat (Manger.isPubOf id) := by
    rw [hm]
    exact Manger.unpubEvts_pubTable
  have hclear := Table.map_removeFirst_clears_iff htab
  constructor
  · intro h
    refine hclear.mp fun row r hlt hx => ?_
    exact h.gone row r (by rwa [hmax]) hx
  · intro h
    refine ⟨fun row r hlt hx => ?_, fun row r hno => Table.map_removeFirst_keeps htab hno⟩
    rw [hmax] at hlt
    exact hclear.mpr h row r hlt hx

/-- The rows that others are filling in stay besides, exactly when none of them reads as the operator's. -/
theorem unpubEvts_fills_iff (hr : Reach ok clients s) (hc : s.calls t = some (.unpubEvts id))
    (hn : next s (t, .run env) = some s') :
    (PubsUndone s s' id ∧ FillsKept s s' id) ↔ (s.manger.OnePub id ∧ s.FillsApart id) := by
  have hiff := unpubEvts_undone_iff hc hn
  have hmax : s'.manger.mayPubEvtNumMax = s.manger.mayPubEvtNumMax := by
    rw [unpubEvts_next hc hn]
    exact (s.manger.unpubEvts_shape id).mayPubEvtNumMax
  constructor
  · rintro ⟨h, hkept⟩
    refine ⟨hiff.mp h, fun u id' ids row pRow pc r hu hne hrow => ?_⟩
    have hlt := (pubInv_reach hr u id' ids _ hu).2.1
    exact h.gone row (pRow, r) (by rwa [hmax]) (hkept u id' ids row pRow pc r hu hne hrow)
  · rintro ⟨h, hapart⟩
    have hundone := hiff.mpr h
    refine ⟨hundone, fun u id' ids row pRow pc r hu hne hrow => ?_⟩
    exact (hundone.others row (pRow, r) (hapart u id' ids row pRow pc r hu hne hrow)).mpr hrow

/-- **Withdrawals.**  In a reachable state an `unsubEvts` leaves no subscription of its operator, the others as they
were, and its callback uncalled until it subscribes again, exactly when the operator has at most one subscription; and
`unpubEvts` the same for publications, where the rows that calls for others are still filling in stay as well exactly
when none of them reads as the operator's. -/
theorem undone_iff (hr : Reach ok clients s) :
    (∀ t id env s', s.calls t = some (.unsubEvts id) → next s (t, .run env) = some s' →
      (SubsUndone s s' id ↔ s.manger.OneSub id)) ∧
    ∀ t id env s', s.calls t = some (.unpubEvts id) → next s (t, .run env) = some s' →
      (PubsUndone s s' id ↔ s.manger.OnePub id) ∧
      (PubsUndone s s' id ∧ FillsKept s s' id ↔ s.manger.OnePub id ∧ s.FillsApart id) :=
  ⟨fun _ _ _ _ hc hn => unsubEvts_undone_iff hr hc hn, fun _ _ _ _ hc hn =>
    ⟨unpubEvts_undone_iff hc hn, unpubEvts_fills_iff hr hc hn⟩⟩

/-- `t` is in an `unsubEvts` of the operator. -/
def State.unsubscribes (s : State abi) (t : Thread) (id : EvtOperID abi) : Bool :=
  match s.calls t with
  | some (.unsubEvts x) => x == id
  | _ => false

theorem calls_of_unsubscribes (h : s.unsubscribes t id = true) : s.calls t = some (.unsubEvts id) := by
  unfold State.unsubscribes at h
  split at h
  · rename_i x hc
    rw [hc, beq_iff_eq.mp h]
  · simp at h

/-- The second subscription of the operator is left by its `unsubEvts`. -/
theorem second_row_stays :
    ∃ (s s' : State lp64) (r : Row lp64), Reach (fun _ _ => True) 1 s ∧ s.calls (.client 0) = some (.unsubEvts 0) ∧
      next s (.client 0, .go) = some s' ∧ s'.manger.subRow 1 = some r ∧ r.operID = 0 ∧ ¬ SubsUndone s s' 0 := by
  obtain ⟨s, hr, hs⟩ := reach_of_run (fun _ _ => True) 1 (subscribedTwice.take 12)
    (fun s : State lp64 => s.unsubscribes (.client 0) 0 &&
      (next s (.client 0, .go)).any fun s' : State lp64 => decide (s'.manger.maySubEvtNumMax = 2) &&
        (s'.manger.subRow 1).any fun r : Row lp64 => r.operID == 0) (by decide +kernel)
  simp only [Bool.and_eq_true, Option.any_eq_true, decide_eq_true_eq, beq_iff_eq] at hs
  obtain ⟨hcall, s', hn, hmax, r, hrow, hid⟩ := hs
  have hc := calls_of_unsubscribes hcall
  refine ⟨s, s', r, hr, hc, hn, hrow, hid, fun h => ?_⟩
  exact h.gone 1 r (by simp [hmax]) hrow hid

/-- The one subscription of an operator is withdrawn. -/
theorem undone_iff_one :
    ∃ s s' : State lp64, s.calls (.client 0) = some (.unsubEvts 0) ∧ next s (.client 0, .go) = some s' ∧
      SubsUndone s s' 0 := by
  obtain ⟨s, hr, hs⟩ := reach_of_run (fun _ _ => True) 1 (subscribedTwice.take 8 ++ [(.client 0, .call (.unsubEvts 0))])
    (fun s : State lp64 => s.unsubscribes (.client 0) 0 &&
      (next s (.client 0, .go)).isSome && decide (s.manger.maySubEvtNumMax = 2) && (s.manger.subRow 1).isNone)
    (by decide +kernel)
  simp only [Bool.and_eq_true, Option.isSome_iff_exists, Option.isNone_iff_eq_none, decide_eq_true_eq] at hs
  obtain ⟨⟨⟨hcall, s', hn⟩, hmax⟩, hrow⟩ := hs
  have hc := calls_of_unsubscribes hcall
  refine ⟨s, s', hc, hn, ((undone_iff hr).1 _ _ _ _ hc hn).mpr fun i j r r' hi hj hri hrj _ _ => ?_⟩
  -- row 1 is free, so that both rows are row 0
  rw [hmax] at hi hj
  have hi0 : i = 0 := by
    by_contra hne
    obtain rfl : i = 1 := by simp at hi; omega
    simp [hrow] at hri
  have hj0 : j = 0 := by
    by_contra hne
    obtain rfl : j = 1 := by simp at hj; omega
    simp [hrow] at hrj
  rw [hi0, hj0]

end PlatIF.Evt
