import PlatIF.Evt.Bounds
import PlatIF.Evt.InitFailure
import PlatIF.Evt.Registry

/-!
# The rows of the publication table

`__PLT_EVT_doPubEvts` stores the pointer of a zeroed row into the table and fills the row in afterwards, one store after
another, without the lock of the table.  So others may see the row half filled in, and may take its pointer out of the
table before the last store.

* `Row.filled` — a row as it stands before each of the stores;
* `PubMove` — what a step does to the publication table;
* `PubRows` — one call fills a row in, and in the table the row stands as that call has left it;
* `State.leavesFills` — the step frees no row that is being filled in.
-/

namespace PlatIF.Evt

variable {abi : Abi} {s s' : State abi} {t : Thread} {a : Act abi} {env : Env} {clients : ℕ}
  {ok : State abi → Thread × Act abi → Prop} {id : EvtOperID abi} {ids : List EvtID} {row pRow : ℕ} {pc pc' : FillPc}

/-- `_mEvtPSDB_PubTable[row]`. -/
def Manger.pubRow (m : Manger abi) (row : ℕ) : Option (ℕ × Row abi) := m.pubTable.bind fun tab => tab.entry row

/-- The address of the row that the call is filling in. -/
def Call.filling : Call abi → Option ℕ
  | .pubEvts _ _ (.fill _ pRow _) => some pRow
  | _ => none

/-- A `pubEvts` is filling in the row at this address. -/
def State.Fills (s : State abi) (pRow : ℕ) : Prop := ∃ t c, s.calls t = some c ∧ c.filling = some pRow

/-- The same, to be tested. -/
def State.fills (s : State abi) (pRow : ℕ) : Bool :=
  s.threads.any fun t => (s.calls t).any fun c => c.filling == some pRow

theorem fills_iff (h : Reach ok clients s) : s.fills pRow = true ↔ s.Fills pRow := by
  simp only [State.fills, List.any_eq_true, Option.any_eq_true, beq_iff_eq]
  constructor
  · rintro ⟨t, -, c, hc, hp⟩
    exact ⟨t, c, hc, hp⟩
  · rintro ⟨t, c, hc, hp⟩
    exact ⟨t, mem_threads h (by simp [hc]), c, hc, hp⟩

/-! ### The stores -/

/-- The row as it stands before this store. -/
def Row.filled (id : EvtOperID abi) (ids : List EvtID) : FillPc → Row abi
  | .roleType => .zero
  | .numIDs => ⟨.evtPuber, 0, none, [], 0⟩
  | .evtPuberID => ⟨.evtPuber, 0, none, List.replicate ids.length 0, 0⟩
  | .evtID num => ⟨.evtPuber, id, none, ids.take num ++ List.replicate (ids.length - num) 0, 0⟩

/-- The row after the last store. -/
def Row.published (id : EvtOperID abi) (ids : List EvtID) : Row abi := ⟨.evtPuber, id, none, ids, 0⟩

/-- One more identifier is stored. -/
theorem set_take_append (ids : List EvtID) {num : ℕ} (h : num < ids.length) :
    (ids.take num ++ List.replicate (ids.length - num) 0).set num (ids.getD num 0) =
      ids.take (num + 1) ++ List.replicate (ids.length - (num + 1)) 0 := by
  have hlen : (ids.take num).length = num := by simp [h.le]
  have hsub : ids.length - num = ids.length - (num + 1) + 1 := by omega
  rw [List.set_append_right _ _ hlen.le, hlen, Nat.sub_self, hsub, List.replicate_succ, List.set_cons_zero,
    List.take_add_one, List.append_assoc]
  simp [h]

/-- A store before the last leaves the row as the next one finds it. -/
theorem Row.fill_filled (h : pc.next ids = some pc') (hfit : pc.Fits ids) :
    (Row.filled id ids pc).fill id ids pc = Row.filled id ids pc' := by
  cases pc with
  | roleType | numIDs =>
    obtain rfl := Option.some.inj h
    rfl
  | evtPuberID =>
    simp only [FillPc.next, Option.ite_none_right_eq_some, Option.some.injEq] at h
    obtain ⟨-, rfl⟩ := h
    simp [Row.filled, Row.fill]
  | evtID num =>
    simp only [FillPc.next, Option.ite_none_right_eq_some, Option.some.injEq] at h
    obtain ⟨-, rfl⟩ := h
    simp only [Row.filled, Row.fill, set_take_append ids hfit]

/-- The last store leaves the row as it is to be. -/
theorem Row.fill_last (h : pc.next ids = none) (hfit : pc.Fits ids) :
    (Row.filled id ids pc).fill id ids pc = Row.published id ids := by
  cases pc with
  | roleType | numIDs => simp [FillPc.next] at h
  | evtPuberID =>
    have hnil : ids = [] := by simpa [FillPc.next] using h
    simp [Row.filled, Row.fill, Row.published, hnil]
  | evtID num =>
    have hle : ids.length ≤ num + 1 := by simpa [FillPc.next] using h
    simp only [Row.filled, Row.fill, set_take_append ids hfit]
    simp [Row.published, List.take_of_length_le hle, Nat.sub_eq_zero_of_le hle]

/-! ### The operations on the table -/

theorem Table.set_eq_some {α : Type*} {tab : Table α} {i j : ℕ} {x : Option α} {y : α}
    (h : (tab.set i x).entry j = some y) : j = i ∧ x = some y ∨ tab.entry j = some y := by
  by_cases hij : j = i
  · subst hij
    exact .inl ⟨rfl, by simpa [Table.set] using h⟩
  · exact .inr (by simpa [Table.set, Function.update_of_ne hij] using h)

namespace Manger

variable {m : Manger abi}

theorem storePubRow_self (h : m.HasTables) : (m.storePubRow row pRow).pubRow row = some (pRow, .zero) := by
  obtain ⟨tab, htab, -⟩ := Option.map_eq_some_iff.mp h.pub
  simp [storePubRow, pubRow, htab, Table.set]

theorem storePubRow_ne {i : ℕ} (hi : i ≠ row) : (m.storePubRow row pRow).pubRow i = m.pubRow i := by
  unfold storePubRow
  split
  · rfl
  · rename_i tab htab
    simp [pubRow, htab, Table.set, Function.update_of_ne hi]

theorem fillPubRow_self {r : Row abi} (h : m.pubRow row = some (pRow, r)) :
    (m.fillPubRow row pRow id ids pc).pubRow row = some (pRow, r.fill id ids pc) := by
  unfold fillPubRow
  cases htab : m.pubTable with
  | none => simp [pubRow, htab] at h
  | some tab =>
    have hentry : tab.entry row = some (pRow, r) := by simpa [pubRow, htab] using h
    simp [hentry, pubRow, Table.set]

/-- A row with another pointer is not touched. -/
theorem fillPubRow_ne {i : ℕ} (h : ∀ r, i = row → m.pubRow row ≠ some (pRow, r)) :
    (m.fillPubRow row pRow id ids pc).pubRow i = m.pubRow i := by
  unfold fillPubRow
  split
  · rfl
  · rename_i tab htab
    split
    · rfl
    · rename_i x hx
      split
      · rename_i hp
        have hi : i ≠ row := fun hi => h x.2 hi (by rw [pubRow, htab, ← hp]; exact hx)
        simp [pubRow, htab, Table.set, Function.update_of_ne hi]
      · rfl

/-- A row after the store: the one that the call fills in, or one as it was. -/
theorem fillPubRow_pubRow {i : ℕ} {x : ℕ × Row abi} (h : (m.fillPubRow row pRow id ids pc).pubRow i = some x) :
    (∃ r, i = row ∧ m.pubRow row = some (pRow, r) ∧ x = (pRow, r.fill id ids pc)) ∨
      m.pubRow i = some x ∧ (i = row → x.1 ≠ pRow) := by
  by_cases hrow : ∃ r, i = row ∧ m.pubRow row = some (pRow, r)
  · obtain ⟨r, rfl, hr⟩ := hrow
    exact .inl ⟨r, rfl, hr, Option.some.inj (h.symm.trans (fillPubRow_self hr))⟩
  · rw [fillPubRow_ne fun r hi hr => hrow ⟨r, hi, hr⟩] at h
    exact .inr ⟨h, fun hi hp => hrow ⟨x.2, hi, by rw [← hi, ← hp]; exact h⟩⟩

theorem storePubRow_freedRows : (m.storePubRow row pRow).freedRows = m.freedRows := by
  rw [storePubRow_only]

/-- No store through `pRow` moves a pointer. -/
theorem fillPubRow_fst (i : ℕ) :
    ((m.fillPubRow row pRow id ids pc).pubRow i).map Prod.fst = (m.pubRow i).map Prod.fst := by
  by_cases hrow : ∃ r, i = row ∧ m.pubRow row = some (pRow, r)
  · obtain ⟨r, rfl, hr⟩ := hrow
    rw [fillPubRow_self hr, hr]
    rfl
  · rw [fillPubRow_ne fun r hi hr => hrow ⟨r, hi, hr⟩]

theorem fillPubRow_freedRows : (m.fillPubRow row pRow id ids pc).freedRows = m.freedRows := by
  rw [fillPubRow_only]

/-- The test of the loop of `unpubEvts`. -/
def isPubOf (id : EvtOperID abi) (r : ℕ × Row abi) : Bool := r.2.roleType == .evtPuber && r.2.operID == id

/-- The row that `unpubEvts` takes out of the table. -/
def unpubRow (m : Manger abi) (id : EvtOperID abi) : Option (ℕ × Row abi) :=
  m.pubTable.bind fun tab => (tab.first m.mayPubEvtNumMax.toNat (isPubOf id)).bind tab.entry

/-- A withdrawal takes this row out and frees it, and no other. -/
theorem unpubEvts_cases (m : Manger abi) (id : EvtOperID abi) :
    m.unpubEvts id = m ∨ ∃ row x, m.unpubRow id = some x ∧ m.pubRow row = some x ∧ isPubOf id x = true ∧
      (m.unpubEvts id).freedRows = x.1 :: m.freedRows ∧ (m.unpubEvts id).pubRow row = none ∧
      ∀ i, i ≠ row → (m.unpubEvts id).pubRow i = m.pubRow i := by
  cases htab : m.pubTable with
  | none => exact .inl (by simp [unpubEvts, htab])
  | some tab =>
    cases hfirst : tab.first m.mayPubEvtNumMax.toNat (isPubOf id) with
    | none =>
      unfold isPubOf at hfirst
      exact .inl (by simp only [unpubEvts, htab, hfirst])
    | some row =>
      obtain ⟨-, x, hx, hp⟩ := Table.first_eq_some hfirst
      have hrow : m.unpubRow id = some x := by simp [unpubRow, htab, hfirst, hx]
      have hm : m.unpubEvts id =
          { m with pubTable := some (tab.set row none), freedRows := x.1 :: m.freedRows } := by
        unfold isPubOf at hfirst
        simp only [unpubEvts, htab, hfirst, hx, Option.map_some, Option.toList_some, List.singleton_append]
      refine .inr ⟨row, x, hrow, by rw [pubRow, htab]; exact hx, hp, by rw [hm], by simp [hm, pubRow, Table.set],
        fun i hi => ?_⟩
      simp [hm, pubRow, htab, Table.set, Function.update_of_ne hi]

/-- A row that is not the operator's outlives its withdrawal. -/
theorem unpubEvts_keeps {x : ℕ × Row abi} (hx : isPubOf id x = false) (h : m.pubRow row = some x) :
    (m.unpubEvts id).pubRow row = some x := by
  rcases m.unpubEvts_cases id with hm | ⟨i, y, -, hy, hp, -, -, hsame⟩
  · rwa [hm]
  · have hi : row ≠ i := by
      rintro rfl
      obtain rfl := Option.some.inj (h.symm.trans hy)
      simp [hx] at hp
    rwa [hsame row hi]

/-- What is left after a withdrawal was there. -/
theorem unpubEvts_pubRow {x : ℕ × Row abi} (h : (m.unpubEvts id).pubRow row = some x) : m.pubRow row = some x := by
  rcases m.unpubEvts_cases id with hm | ⟨i, y, -, -, -, -, hnone, hsame⟩
  · rwa [hm] at h
  · by_cases hi : row = i
    · subst hi
      simp [hnone] at h
    · rwa [hsame row hi] at h

end Manger

/-- Nothing is in the tables of an initialization. -/
theorem init_rows {m m' : Manger abi} {args : Option EvtMangerModArgs} {res : TosResult}
    (hT : m.NoTables ∨ m.HasTables) (h : Manger.InitStep m args env res m') :
    m' = m ∨ (∀ row, m'.subRow row = none) ∧ ∀ row, m'.pubRow row = none := by
  rcases hT with hN | hT
  · refine .inr ?_
    cases h with
    | badState | null => exact ⟨fun row => by simp [Manger.subRow, hN.sub], fun row => by simp [Manger.pubRow, hN.pub]⟩
    | done hs ha hm =>
      rename_i m'
      rw [Manger.initTables_success m hm]
      exact ⟨fun row => rfl, fun row => rfl⟩
    | failed hs ha hm hr =>
      obtain ⟨-, -, -, h2, h3, -⟩ := Manger.initTables_failure m hm hr
      exact ⟨fun row => by simp [Manger.subRow, h3], fun row => by simp [Manger.pubRow, h2]⟩
  · exact .inl (hT.initStep h)

/-- An initialization leaves the rows as they are. -/
theorem init_pubRow {m m' : Manger abi} {args : Option EvtMangerModArgs} {res : TosResult}
    (hT : m.NoTables ∨ m.HasTables) (h : Manger.InitStep m args env res m') (row : ℕ) :
    m'.pubRow row = m.pubRow row := by
  rcases init_rows hT h with rfl | ⟨-, hnone⟩
  · rfl
  · rcases hT with hN | hT
    · rw [hnone row, Manger.pubRow, hN.pub]
      rfl
    · rw [hT.initStep h]

theorem init_freedRows {m m' : Manger abi} {args : Option EvtMangerModArgs} {res : TosResult}
    (h : Manger.InitStep m args env res m') : m'.freedRows = m.freedRows := by
  cases h with
  | badState | null => rfl
  | @done x m₁ hs ha hm =>
    have hsame : (m.initTables x env).2.freedRows = _ := m.initTables_freedRows x
    rwa [hm] at hsame
  | @failed x res m₁ hs ha hm hr =>
    have hsame : (m.initTables x env).2.freedRows = _ := m.initTables_freedRows x
    rwa [hm] at hsame

/-! ### Steps on the table -/

/-- What a step does to the publication table, and to the `pubEvts` of its thread. -/
inductive PubMove (s s' : State abi) (t : Thread) : Prop
  | same (hp : ∀ row, s'.manger.pubRow row = s.manger.pubRow row) (hn : s'.nextRow = s.nextRow)
      (hf : s'.manger.freedRows = s.manger.freedRows)
      (hc : s'.calls t = s.calls t ∨ (s.calls t).bind Call.filling = none ∧ (s'.calls t).bind Call.filling = none ∧
        ∀ id, s.calls t ≠ some (.unpubEvts id))
  | stored {id : EvtOperID abi} {ids : List EvtID} {row : ℕ} (hc : s.calls t = some (.pubEvts id ids (.store row)))
      (hc' : s'.calls t = some (.pubEvts id ids (.fill row s.nextRow .roleType)))
      (hm : s'.manger = s.manger.storePubRow row s.nextRow) (hn : s'.nextRow = s.nextRow + 1)
  | filled {id : EvtOperID abi} {ids : List EvtID} {row pRow : ℕ} {pc : FillPc}
      (hc : s.calls t = some (.pubEvts id ids (.fill row pRow pc))) (hf : pRow ∉ s.manger.freedRows)
      (hc' : s'.calls t = (pc.next ids).map fun pc' => .pubEvts id ids (.fill row pRow pc'))
      (hm : s'.manger = s.manger.fillPubRow row pRow id ids pc) (hn : s'.nextRow = s.nextRow)
  | withdrawn {id : EvtOperID abi} (hc : s.calls t = some (.unpubEvts id)) (hc' : s'.calls t = none)
      (hm : s'.manger = s.manger.unpubEvts id) (hn : s'.nextRow = s.nextRow)

theorem LifeStep.pubRow {c : Call abi} (h : LifeStep s t c s') :
    (∀ row, s'.manger.pubRow row = s.manger.pubRow row) ∧ s'.nextRow = s.nextRow ∧
      s'.manger.freedRows = s.manger.freedRows ∧ c.filling = none ∧ (s'.calls t).bind Call.filling = none ∧
      ∀ id, c ≠ .unpubEvts id := by
  cases h <;> exact ⟨fun row => rfl, rfl, rfl, rfl, by simp [Call.filling], by simp⟩

theorem Trans.pubMove (hT : s.manger.NoTables ∨ s.manger.HasTables) (h : Trans s t a s') : PubMove s s' t := by
  cases h with
  | @table env c m n c' os ha hc htab =>
    cases htab with
    | pubStore => exact .stored hc (by simp) rfl rfl
    | pubFill hf hn => exact .filled hc hf (by simp [hn]) rfl rfl
    | pubDone hf hn => exact .filled hc hf (by simp [hn]) rfl rfl
    | unpub => exact .withdrawn hc (by simp) rfl rfl
    | @init args hw =>
      have hstep := s.manger.initEvtManger_step args env
      exact .same (init_pubRow hT hstep) rfl (init_freedRows hstep) (by simp [hc, Call.filling])
    | @reg args res id m hm =>
      have honly := s.manger.doRegOper_only args env
      rw [hm] at honly
      have hm' : m = _ := honly
      refine .same (fun row => ?_) rfl ?_ (by simp [hc, Call.filling])
      · show m.pubRow row = _
        rw [hm']
        rfl
      · show m.freedRows = _
        rw [hm']
    | unreg =>
      refine .same (fun row => ?_) rfl ?_ (by simp [hc, Call.filling])
      · show (s.manger.unregOper _).pubRow row = _
        rw [Manger.unregOper_only]
        rfl
      · show (s.manger.unregOper _).freedRows = _
        rw [Manger.unregOper_only]
    | sub hl =>
      refine .same (fun row => ?_) rfl ?_ (by simp [hc, Call.filling])
      · show (s.manger.doSubEvts _ _ _ _).2.pubRow row = _
        rw [Manger.doSubEvts_only]
        rfl
      · show (s.manger.doSubEvts _ _ _ _).2.freedRows = _
        rw [Manger.doSubEvts_only]
    | unsub hl =>
      refine .same (fun row => ?_) rfl ?_ (by simp [hc, Call.filling])
      · show (s.manger.unsubEvts _).pubRow row = _
        rw [Manger.unsubEvts_only]
        rfl
      · show (s.manger.unsubEvts _).freedRows = _
        rw [Manger.unsubEvts_only]
    | _ => exact .same (fun row => rfl) rfl rfl (by simp [hc, Call.filling])
  | @call api ha hc =>
    refine .same (fun row => rfl) rfl rfl (.inr ⟨by simp [hc], ?_, by simp [hc]⟩)
    cases api <;> simp [Api.toCall, Call.filling]
  | life ha hc hl =>
    obtain ⟨hp, hn, hf, hfill, hfill', hu⟩ := hl.pubRow
    exact .same hp hn hf (.inr ⟨by simp [hc, hfill], hfill', fun id h => hu id (Option.some.inj (hc.symm.trans h))⟩)
  | cancelJoin ha ht hc => exact .same (fun row => rfl) rfl rfl (by simp [hc, Call.filling])
  | post ha hc | signal ha hc => exact .same (by simp) (by simp) (by simp) (by simp [hc, Call.filling])
  | endDispatch ht hc => exact .same (fun row => rfl) rfl rfl (.inl (by simp [State.endDispatch]))
  | _ => exact .same (fun row => rfl) rfl rfl (.inl rfl)

/-! ### Rows that are being filled in -/

/-- One call fills a row in, at an address of its own; and where the table holds this address, it is in the row of the
call, and the row stands as the call has left it. -/
structure PubRows (s : State abi) : Prop where
  entry : ∀ i p r, s.manger.pubRow i = some (p, r) → p < s.nextRow
  freed : ∀ p ∈ s.manger.freedRows, p < s.nextRow
  fill : ∀ t c p, s.calls t = some c → c.filling = some p → p < s.nextRow
  apart : ∀ t u c d p, s.calls t = some c → s.calls u = some d → c.filling = some p → d.filling = some p → t = u
  stands : ∀ t id ids row pRow pc i r, s.calls t = some (.pubEvts id ids (.fill row pRow pc)) →
    s.manger.pubRow i = some (pRow, r) → i = row ∧ r = Row.filled id ids pc

/-- The calls that fill a row in after a step did so before, but for the one that stores its pointer. -/
theorem PubMove.fills (h : PubMove s s' t) (hne : ∀ u, u ≠ t → s'.calls u = s.calls u) {u : Thread} {c : Call abi}
    {p : ℕ} (hc : s'.calls u = some c) (hp : c.filling = some p) :
    (∃ d, s.calls u = some d ∧ d.filling = some p) ∨ u = t ∧ p = s.nextRow ∧ s'.nextRow = s.nextRow + 1 := by
  by_cases hut : u = t
  · subst hut
    cases h with
    | same hpub hn hf hsame =>
      rcases hsame with hsame | ⟨-, hno, -⟩
      · exact .inl ⟨c, hsame ▸ hc, hp⟩
      · simp [hc, hp] at hno
    | stored hs hs' hm hn =>
      obtain rfl := Option.some.inj (hs'.symm.trans hc)
      exact .inr ⟨rfl, (Option.some.inj hp).symm, hn⟩
    | filled hs hf hs' =>
      obtain ⟨pc', -, rfl⟩ := Option.map_eq_some_iff.mp (hs'.symm.trans hc)
      exact .inl ⟨_, hs, hp⟩
    | withdrawn hs hs' => simp [hs'] at hc
  · exact .inl ⟨c, (hne u hut) ▸ hc, hp⟩

/-- A row in the table that nobody fills in is not filled in again. -/
theorem PubMove.not_fills (hI : PubRows s) (h : PubMove s s' t) (hne : ∀ u, u ≠ t → s'.calls u = s.calls u) {i p : ℕ}
    {r : Row abi} (hr : s.manger.pubRow i = some (p, r)) (hf : ¬ s.Fills p) : ¬ s'.Fills p := by
  rintro ⟨u, c, hc, hp⟩
  rcases h.fills hne hc hp with ⟨d, hd, hp⟩ | ⟨-, rfl, -⟩
  · exact hf ⟨u, d, hd, hp⟩
  · exact absurd (hI.entry i _ r hr) (lt_irrefl _)

theorem PubMove.nextRow_le (h : PubMove s s' t) : s.nextRow ≤ s'.nextRow := by
  cases h with
  | same hp hn => exact hn.ge
  | stored hc hc' hm hn => omega
  | filled hc hf hc' hm hn => exact hn.ge
  | withdrawn hc hc' hm hn => exact hn.ge

/-- Every address in the table was there before, but for the one that is stored. -/
theorem PubMove.entry (h : PubMove s s' t) {i p : ℕ} {r : Row abi} (hr : s'.manger.pubRow i = some (p, r)) :
    (∃ r₀, s.manger.pubRow i = some (p, r₀)) ∨ p = s.nextRow ∧ s'.nextRow = s.nextRow + 1 := by
  cases h with
  | same hp => exact .inl ⟨r, (hp i).symm.trans hr⟩
  | @stored id ids row hc hc' hm hn =>
    rw [hm] at hr
    by_cases hi : i = row
    · subst hi
      unfold Manger.storePubRow at hr
      split at hr
      · exact .inl ⟨r, hr⟩
      · rename_i tab htab
        have hx : (s.nextRow, Row.zero) = (p, r) := by simpa [Manger.pubRow, Table.set] using hr
        exact .inr ⟨(Prod.mk.inj hx).1.symm, hn⟩
    · exact .inl ⟨r, (Manger.storePubRow_ne hi).symm.trans hr⟩
  | filled hc hf hc' hm hn =>
    rw [hm] at hr
    rcases Manger.fillPubRow_pubRow hr with ⟨r₀, rfl, hr₀, hx⟩ | ⟨hold, -⟩
    · obtain ⟨rfl, -⟩ := Prod.mk.inj hx
      exact .inl ⟨r₀, hr₀⟩
    · exact .inl ⟨r, hold⟩
  | withdrawn hc hc' hm hn =>
    rw [hm] at hr
    exact .inl ⟨r, Manger.unpubEvts_pubRow hr⟩

/-- A row that is freed was in the table, and is the one that an `unpubEvts` takes out. -/
theorem PubMove.freed (h : PubMove s s' t) {p : ℕ} (hp : p ∈ s'.manger.freedRows) :
    p ∈ s.manger.freedRows ∨ ∃ i r id, s.manger.pubRow i = some (p, r) ∧ s.calls t = some (.unpubEvts id) ∧
      s.manger.unpubRow id = some (p, r) := by
  cases h with
  | same hpub hn hf => exact .inl (hf ▸ hp)
  | stored hc hc' hm => exact .inl (by rwa [hm, Manger.storePubRow_freedRows] at hp)
  | filled hc hf hc' hm => exact .inl (by rwa [hm, Manger.fillPubRow_freedRows] at hp)
  | @withdrawn id hc hc' hm =>
    rw [hm] at hp
    rcases s.manger.unpubEvts_cases id with hsame | ⟨i, x, hx, hi, -, hfreed, -⟩
    · exact .inl (hsame ▸ hp)
    · rw [hfreed, List.mem_cons] at hp
      rcases hp with rfl | hp
      · exact .inr ⟨i, x.2, id, hi, hc, hx⟩
      · exact .inl hp

/-- A store goes to the row that the call has put into the table, and to no other. -/
theorem pubRows_stands (hP : PubInv s) (hT : s.manger.NoTables ∨ s.manger.HasTables) (hI : PubRows s)
    (h : Trans s t a s') {u : Thread} {i : ℕ} {r : Row abi} (hc : s'.calls u = some (.pubEvts id ids (.fill row pRow pc)))
    (hr : s'.manger.pubRow i = some (pRow, r)) : i = row ∧ r = Row.filled id ids pc := by
  cases h.pubMove hT with
  | same hpub hn hf hsame =>
    refine hI.stands u id ids row pRow pc i r ?_ ((hpub i).symm.trans hr)
    by_cases hut : u = t
    · subst hut
      rcases hsame with hsame | ⟨-, hno, -⟩
      · exact hsame.symm.trans hc
      · simp [hc, Call.filling] at hno
    · exact (h.calls_ne hut).symm.trans hc
  | @stored id₀ ids₀ row₀ hs hs' hm hn =>
    rw [hm] at hr
    by_cases hut : u = t
    · subst hut
      obtain ⟨rfl, rfl, hpc⟩ := Call.pubEvts.inj (Option.some.inj (hs'.symm.trans hc))
      obtain ⟨rfl, rfl, rfl⟩ := PubPc.fill.inj hpc
      by_cases hi : i = row₀
      · subst hi
        rw [Manger.storePubRow_self (hP u _ _ _ hs).1, Option.some.injEq, Prod.mk.injEq] at hr
        exact ⟨rfl, hr.2.symm⟩
      · rw [Manger.storePubRow_ne hi] at hr
        exact absurd (hI.entry i _ r hr) (lt_irrefl _)
    · have hc₀ := (h.calls_ne hut).symm.trans hc
      have hlt := hI.fill u _ pRow hc₀ rfl
      by_cases hi : i = row₀
      · subst hi
        rw [Manger.storePubRow_self (hP t _ _ _ hs).1, Option.some.injEq, Prod.mk.injEq] at hr
        exact absurd hr.1 hlt.ne'
      · rw [Manger.storePubRow_ne hi] at hr
        exact hI.stands u id ids row pRow pc i r hc₀ hr
  | @filled id₀ ids₀ row₀ pRow₀ pc₀ hs hf hs' hm hn =>
    rw [hm] at hr
    by_cases hut : u = t
    · subst hut
      obtain ⟨pc', hpc', heq⟩ := Option.map_eq_some_iff.mp (hs'.symm.trans hc)
      obtain ⟨rfl, rfl, hpc⟩ := Call.pubEvts.inj heq
      obtain ⟨rfl, rfl, rfl⟩ := PubPc.fill.inj hpc
      rcases Manger.fillPubRow_pubRow hr with ⟨r₀, rfl, hr₀, hx⟩ | ⟨hold, hne⟩
      · obtain ⟨-, rfl⟩ := hI.stands u _ _ _ _ _ _ _ hs hr₀
        refine ⟨rfl, ?_⟩
        rw [(Prod.mk.inj hx).2, Row.fill_filled hpc' (hP u _ _ _ hs).2.2]
      · exact absurd rfl (hne (hI.stands u _ _ _ _ _ _ _ hs hold).1)
    · have hc₀ := (h.calls_ne hut).symm.trans hc
      rcases Manger.fillPubRow_pubRow hr with ⟨r₀, -, -, hx⟩ | ⟨hold, -⟩
      · obtain ⟨rfl, -⟩ := Prod.mk.inj hx
        exact absurd (hI.apart u t _ _ pRow hc₀ hs rfl rfl) hut
      · exact hI.stands u id ids row pRow pc i r hc₀ hold
  | withdrawn hs hs' hm hn =>
    rw [hm] at hr
    have hut : u ≠ t := fun hut => by simp [hut, hs'] at hc
    exact hI.stands u id ids row pRow pc i r ((h.calls_ne hut).symm.trans hc) (Manger.unpubEvts_pubRow hr)

/-- **The rows on their way.** -/
theorem pubRows_trans (hP : PubInv s) (hT : s.manger.NoTables ∨ s.manger.HasTables) (hI : PubRows s)
    (h : Trans s t a s') : PubRows s' := by
  have hmove := h.pubMove hT
  have hle := hmove.nextRow_le
  have hfills := fun {u c p} => hmove.fills (fun u hu => h.calls_ne hu) (u := u) (c := c) (p := p)
  refine ⟨fun i p r hr => ?_, fun p hp => ?_, fun u c p hc hp => ?_, fun u v c d p hc hd hp hp' => ?_,
    fun u id ids row pRow pc i r hc hr => pubRows_stands hP hT hI h hc hr⟩
  · rcases hmove.entry hr with ⟨r₀, hold⟩ | ⟨rfl, hn⟩
    · exact (hI.entry i p r₀ hold).trans_le hle
    · omega
  · rcases hmove.freed hp with hold | ⟨i, r, -, hr, -⟩
    · exact (hI.freed p hold).trans_le hle
    · exact (hI.entry i p r hr).trans_le hle
  · rcases hfills hc hp with ⟨d, hd, hp⟩ | ⟨-, rfl, hn⟩
    · exact (hI.fill u d p hd hp).trans_le hle
    · omega
  · rcases hfills hc hp with ⟨c₀, hc₀, hq⟩ | ⟨rfl, hpn, -⟩
    · rcases hfills hd hp' with ⟨d₀, hd₀, hq'⟩ | ⟨-, hpn, -⟩
      · exact hI.apart u v c₀ d₀ p hc₀ hd₀ hq hq'
      · exact absurd (hI.fill u c₀ p hc₀ hq) hpn.not_lt
    · rcases hfills hd hp' with ⟨d₀, hd₀, hq'⟩ | ⟨rfl, -, -⟩
      · exact absurd (hI.fill v d₀ p hd₀ hq') hpn.not_lt
      · rfl

theorem pubRows_reach (h : Reach ok clients s) : PubRows s := by
  refine h.induction (P := PubRows) ⟨fun i p r hr => ?_, fun p hp => ?_, fun t c p hc => ?_, fun t u c d p hc => ?_,
    fun t id ids row pRow pc i r hc => ?_⟩ fun _ _ _ _ hr hI _ _ htr =>
      pubRows_trans (pubInv_reach hr) (tables_reach hr) hI htr
  · simp [State.init, Manger.init, Manger.pubRow] at hr
  · simp [State.init, Manger.init] at hp
  · simp [State.init] at hc
  · simp [State.init] at hc
  · simp [State.init] at hc

/-! ### Rows that are freed -/

/-- The step frees no row that is being filled in. -/
def State.leavesFills (s : State abi) (x : Thread × Act abi) : Bool :=
  match s.calls x.1 with
  | some (.unpubEvts id) => !(s.manger.unpubRow id).any fun r => s.fills r.1
  | _ => true

theorem leavesFills_unpub (hr : Reach ok clients s) (hok : s.leavesFills (t, a) = true)
    (hc : s.calls t = some (.unpubEvts id)) {x : ℕ × Row abi} (hx : s.manger.unpubRow id = some x) :
    ¬ s.Fills x.1 := by
  intro hf
  have hfills := (fills_iff hr).mpr hf
  simp [State.leavesFills, hc, hx, hfills] at hok

/-- No row is freed while it is being filled in. -/
def FillsLive (s : State abi) : Prop := ∀ p, s.Fills p → p ∉ s.manger.freedRows

theorem fillsLive_trans (hr : Reach ok clients s) (hF : FillsLive s) (hok : s.leavesFills (t, a) = true)
    (h : Trans s t a s') : FillsLive s' := by
  have hI := pubRows_reach hr
  have hmove := h.pubMove (tables_reach hr)
  rintro p ⟨u, c, hc, hp⟩ hmem
  have hold := hmove.freed hmem
  rcases hmove.fills (fun u hu => h.calls_ne hu) hc hp with ⟨d, hd, hp⟩ | ⟨-, rfl, -⟩
  · rcases hold with hold | ⟨i, r, id, -, hunpub, hrow⟩
    · exact hF p ⟨u, d, hd, hp⟩ hold
    · exact leavesFills_unpub hr hok hunpub hrow ⟨u, d, hd, hp⟩
  · -- an address that is not used yet
    rcases hold with hold | ⟨i, r, id, hrow, -⟩
    · exact absurd (hI.freed _ hold) (lt_irrefl _)
    · exact absurd (hI.entry i _ r hrow) (lt_irrefl _)

theorem fillsLive_reach (h : Reach (fun s x => s.leavesFills x = true) clients s) : FillsLive s :=
  h.induction (P := FillsLive) (fun p _ => by simp [State.init, Manger.init])
    fun _ _ _ _ hr hF hok _ htr => fillsLive_trans hr hF hok htr

end PlatIF.Evt
