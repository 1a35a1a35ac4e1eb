import PlatIF.Evt.PubTable

/-!
# The operators that the tables speak of

A row of the subscription or publication table carries the id of its operator.  The registration is checked in one lock
section and the row inserted in a later one, `unregOper` does not look at the tables, and `unsubEvts` and `unpubEvts`
remove one row each; and the id of an operator that was unregistered is handed out again.

* `State.Refers` — a row, or a call on its way to insert one, speaks of the operator;
* `State.unrefers` — the step does not unregister such an operator;
* `OwnRun` — a run with the registration that each row was inserted for;
* `rows_belong_iff` — every row belongs to a registered operator, and to the one that inserted it, in the runs of such
  steps, and no others keep it so.
-/

namespace PlatIF.Evt

variable {abi : Abi} {s s' : State abi} {t : Thread} {a : Act abi} {env : Env} {clients : ℕ}
  {ok : State abi → Thread × Act abi → Prop}

/-! ### References -/

/-- The operator for which the call inserts a row: it was found registered. -/
def Call.inserting : Call abi → Option (EvtOperID abi)
  | .subEvts id _ _ true | .pubEvts id _ (.scan _) | .pubEvts id _ (.store _) | .pubEvts id _ (.fill _ _ _) => some id
  | _ => none

/-- A subscription, a publication that is filled in, or a call on its way speaks of the operator. -/
inductive State.Refers (s : State abi) (id : EvtOperID abi) : Prop
  | sub {row : ℕ} {r : Row abi} (hlt : row < s.manger.maySubEvtNumMax.toNat) (h : s.manger.subRow row = some r)
      (hid : r.operID = id)
  | pub {row p : ℕ} {r : Row abi} (hlt : row < s.manger.mayPubEvtNumMax.toNat)
      (h : s.manger.pubRow row = some (p, r)) (hf : ¬ s.Fills p) (hid : r.operID = id)
  | call {t : Thread} {c : Call abi} (h : s.calls t = some c) (hid : c.inserting = some id)

/-- Every operator that is spoken of is registered. -/
def Referential (s : State abi) : Prop := ∀ id, s.Refers id → s.manger.isRegedOperID id = tosYes

/-- The same, to be tested. -/
def State.refersTo (s : State abi) (id : EvtOperID abi) : Bool :=
  ((List.range s.manger.maySubEvtNumMax.toNat).any fun row => (s.manger.subRow row).any fun r => r.operID == id) ||
    ((List.range s.manger.mayPubEvtNumMax.toNat).any fun row =>
      (s.manger.pubRow row).any fun x => !s.fills x.1 && x.2.operID == id) ||
    s.threads.any fun u => (s.calls u).any fun c => c.inserting == some id

/-- The step does not unregister an operator that is spoken of. -/
def State.unrefers (s : State abi) (x : Thread × Act abi) : Bool :=
  match s.calls x.1, x.2 with
  | some (.unregOper id), .run _ => !s.refersTo id
  | _, _ => true

theorem refersTo_iff (h : Reach ok clients s) (id : EvtOperID abi) : s.refersTo id = true ↔ s.Refers id := by
  simp only [State.refersTo, Bool.or_eq_true, List.any_eq_true, List.mem_range, Option.any_eq_true, Bool.and_eq_true,
    beq_iff_eq, Bool.not_eq_true', ← Bool.not_eq_true, fills_iff h]
  constructor
  · rintro ((⟨row, hlt, r, hr, hid⟩ | ⟨row, hlt, x, hx, hf, hid⟩) | ⟨u, -, c, hc, hid⟩)
    · exact .sub hlt hr hid
    · exact .pub hlt hx hf hid
    · exact .call hc hid
  · intro hrefers
    cases hrefers with
    | @sub row r hlt hr hid => exact .inl (.inl ⟨row, hlt, r, hr, hid⟩)
    | @pub row p r hlt hr hf hid => exact .inl (.inr ⟨row, hlt, _, hr, hf, hid⟩)
    | @call u c hc hid => exact .inr ⟨u, mem_threads h (by simp [hc]), c, hc, hid⟩

/-! ### What the sections do to the rows -/

namespace Manger

variable {m : Manger abi} {id : EvtOperID abi} {ids : List EvtID} {row p : ℕ} {r : Row abi}

theorem doSubEvts_subRow {args : EvtSubArgs} (h : (m.doSubEvts id ids args env).2.subRow row = some r) :
    m.subRow row = some r ∨ m.subRow row = none ∧ r.operID = id := by
  unfold doSubEvts at h
  split at h
  · exact .inl h
  · rename_i tab htab
    split at h
    · exact .inl h
    · rename_i i hfree
      split at h
      · exact .inl h
      · split at h
        · exact .inl h
        · rcases Table.set_eq_some h with ⟨hi, hx⟩ | hold
          · refine .inr ⟨?_, by rw [← Option.some.inj hx]⟩
            rw [subRow, htab, hi]
            exact (Table.firstFree_eq_some hfree).2
          · exact .inl (by rw [subRow, htab]; exact hold)

theorem unsubEvts_subRow (h : (m.unsubEvts id).subRow row = some r) : m.subRow row = some r := by
  unfold unsubEvts at h
  split at h
  · exact h
  · rename_i tab htab
    split at h
    · exact h
    · rcases Table.set_eq_some h with ⟨-, hx⟩ | hold
      · simp at hx
      · rw [subRow, htab]
        exact hold

end Manger

/-! ### Where references come from -/

/-- The subscriptions after a step on the tables. -/
theorem TableStep.subRow {c : Call abi} {m : Manger abi} {n : ℕ} {c' : Option (Call abi)} {os : List (Obs abi)}
    (hT : s.manger.NoTables ∨ s.manger.HasTables) (h : TableStep s t env c m n c' os) {row : ℕ} {r : Row abi}
    (hr : m.subRow row = some r) :
    m.maySubEvtNumMax = s.manger.maySubEvtNumMax ∧ (s.manger.subRow row = some r ∨
      s.manger.subRow row = none ∧ ∃ ids args, c = .subEvts r.operID ids args true) := by
  cases h with
  | @init args hw =>
    rcases init_rows hT (s.manger.initEvtManger_step args env) with hm | ⟨hnone, -⟩
    · rw [hm] at hr ⊢
      exact ⟨rfl, .inl hr⟩
    · simp [hnone row] at hr
  | @reg args res id m hm =>
    have honly := s.manger.doRegOper_only args env
    rw [hm] at honly
    rw [show m = _ from honly] at hr ⊢
    exact ⟨rfl, .inl hr⟩
  | unreg =>
    rw [Manger.unregOper_only] at hr ⊢
    exact ⟨rfl, .inl hr⟩
  | unpub =>
    rw [Manger.unpubEvts_only] at hr ⊢
    exact ⟨rfl, .inl hr⟩
  | pubStore =>
    rw [Manger.storePubRow_only] at hr ⊢
    exact ⟨rfl, .inl hr⟩
  | pubFill | pubDone =>
    rw [Manger.fillPubRow_only] at hr ⊢
    exact ⟨rfl, .inl hr⟩
  | @sub id ids args hl =>
    have hmax := (s.manger.doSubEvts_shape id ids args env).maySubEvtNumMax
    rcases Manger.doSubEvts_subRow hr with hold | ⟨hnone, rfl⟩
    · exact ⟨hmax, .inl hold⟩
    · exact ⟨hmax, .inr ⟨hnone, ids, args, rfl⟩⟩
  | @unsub id hl => exact ⟨(s.manger.unsubEvts_shape id).maySubEvtNumMax, .inl (Manger.unsubEvts_subRow hr)⟩
  | _ => exact ⟨rfl, .inl hr⟩

/-- A call that inserts a row did so before, or has found the operator registered. -/
theorem TableStep.inserting {c c' : Call abi} {m : Manger abi} {n : ℕ} {os : List (Obs abi)}
    (h : TableStep s t env c m n (some c') os) {id : EvtOperID abi} (hid : c'.inserting = some id) :
    c.inserting = some id ∨ s.manger.isRegedOperID id = tosYes ∧ m = s.manger := by
  cases h with
  | pubCheck hr | subCheck hr =>
    obtain rfl := Option.some.inj hid
    exact .inr ⟨hr, rfl⟩
  | pubNext | pubFree | pubStore | pubFill => exact .inl hid
  | regCheck | postCheck | postLoad => simp [Call.inserting] at hid

/-- A subscription was there before, or is inserted by the step into a free row. -/
theorem Trans.subRow (hT : s.manger.NoTables ∨ s.manger.HasTables) (h : Trans s t a s') {row : ℕ} {r : Row abi}
    (hlt : row < s'.manger.maySubEvtNumMax.toNat) (hr : s'.manger.subRow row = some r) :
    row < s.manger.maySubEvtNumMax.toNat ∧ (s.manger.subRow row = some r ∨ s.manger.subRow row = none ∧
      ∃ ids args env, s.calls t = some (.subEvts r.operID ids args true) ∧ a = .run env) := by
  cases h with
  | table ha hc htab =>
    obtain ⟨hmax, hold | ⟨hnone, ids, args, rfl⟩⟩ := htab.subRow hT hr
    · exact ⟨by rw [← hmax]; exact hlt, .inl hold⟩
    · exact ⟨by rw [← hmax]; exact hlt, .inr ⟨hnone, ids, args, _, hc, ha⟩⟩
  | life ha hc hl =>
    rw [hl.tables] at hlt hr
    exact ⟨hlt, .inl hr⟩
  | post | signal => exact ⟨by simpa using hlt, .inl (by simpa using hr)⟩
  | _ => exact ⟨hlt, .inl hr⟩

/-- A publication that is filled in was so before, or is by the last store of the step. -/
theorem PubMove.rest (hP : PubInv s) (hI : PubRows s) (h : PubMove s s' t)
    (hne : ∀ u, u ≠ t → s'.calls u = s.calls u) {row p : ℕ} {r : Row abi} (hr : s'.manger.pubRow row = some (p, r))
    (hf : ¬ s'.Fills p) :
    s.manger.pubRow row = some (p, r) ∧ ¬ s.Fills p ∨ ∃ c, s.calls t = some c ∧ c.inserting = some r.operID := by
  -- what others fill in, they still do
  have hrest : (∀ c, s.calls t = some c → c.filling = some p → s'.Fills p) → ¬ s.Fills p := by
    rintro hself ⟨u, c, hc, hp⟩
    by_cases hut : u = t
    · subst hut
      exact hf (hself c hc hp)
    · exact hf ⟨u, c, (hne u hut).trans hc, hp⟩
  cases h with
  | same hpub hn hfreed hsame =>
    refine .inl ⟨(hpub row).symm.trans hr, hrest fun c hc hp => ?_⟩
    rcases hsame with hsame | ⟨hno, -⟩
    · exact ⟨t, c, hsame.trans hc, hp⟩
    · simp [hc, hp] at hno
  | @stored id ids row₀ hc hc' hm hn =>
    rw [hm] at hr
    refine .inl ⟨?_, hrest fun c hc₀ hp => ?_⟩
    · by_cases hi : row = row₀
      · subst hi
        rw [Manger.storePubRow_self (hP t _ _ _ hc).1, Option.some.injEq, Prod.mk.injEq] at hr
        obtain ⟨rfl, -⟩ := hr
        exact absurd ⟨t, _, hc', rfl⟩ hf
      · exact (Manger.storePubRow_ne hi).symm.trans hr
    · obtain rfl := Option.some.inj (hc.symm.trans hc₀)
      simp [Call.filling] at hp
  | @filled id ids row₀ pRow pc hc hfreed hc' hm hn =>
    rw [hm] at hr
    rcases Manger.fillPubRow_pubRow hr with ⟨r₀, rfl, hr₀, hx⟩ | ⟨hold, hne⟩
    · -- the store was the last, so that the row carries the operator of the call
      obtain ⟨rfl, rfl⟩ := Prod.mk.inj hx
      cases hlast : pc.next ids with
      | some pc' => exact absurd ⟨t, _, by rw [hc', hlast]; rfl, rfl⟩ hf
      | none =>
        obtain ⟨-, rfl⟩ := hI.stands t _ _ _ _ _ _ _ hc hr₀
        rw [Row.fill_last hlast (hP t _ _ _ hc).2.2]
        exact .inr ⟨_, hc, rfl⟩
    · refine .inl ⟨hold, hrest fun c hc₀ hp => ?_⟩
      obtain rfl := Option.some.inj (hc.symm.trans hc₀)
      obtain rfl := Option.some.inj hp
      exact absurd rfl (hne (hI.stands t _ _ _ _ _ _ _ hc hold).1)
  | withdrawn hc hc' hm hn =>
    rw [hm] at hr
    refine .inl ⟨Manger.unpubEvts_pubRow hr, hrest fun c hc₀ hp => ?_⟩
    obtain rfl := Option.some.inj (hc.symm.trans hc₀)
    simp [Call.filling] at hp

/-- A call that inserts a row did so before, or has just found its operator registered. -/
theorem Trans.inserting (h : Trans s t a s') {u : Thread} {c : Call abi} (hc : s'.calls u = some c)
    {id : EvtOperID abi} (hid : c.inserting = some id) :
    (∃ d, s.calls u = some d ∧ d.inserting = some id) ∨
      s.manger.isRegedOperID id = tosYes ∧ s'.manger = s.manger := by
  by_cases hut : u = t
  · subst hut
    cases h with
    | @call api =>
      simp only [State.setCall, Function.update_self, Option.some.injEq] at hc
      subst hc
      cases api <;> simp [Api.toCall, Call.inserting] at hid
    | @table env c₀ m n c' os ha hc₀ htab =>
      obtain rfl : c' = some c := by simpa using hc
      rcases htab.inserting hid with hins | hreg
      · exact .inl ⟨_, hc₀, hins⟩
      · exact .inr hreg
    | life ha hc₀ hl =>
      cases hl with
      | enabled | disabled => simp at hc
      | enable | initMutex | initCond | create | disable | destroyMutex | destroyCond | free | clear =>
        simp only [State.setCall, Function.update_self, Option.some.injEq] at hc
        simp [← hc, Call.inserting] at hid
    | cancelJoin | signal => simp at hc
    | post =>
      simp only [State.obs, State.setCall, Function.update_self, Option.some.injEq] at hc
      simp [← hc, Call.inserting] at hid
    | _ => exact .inl ⟨c, hc, hid⟩
  · exact .inl ⟨c, (h.calls_ne hut).symm.trans hc, hid⟩

/-- **Where a reference comes from**: it was there before, or the operator was found registered. -/
theorem Trans.refers (hr : Reach ok clients s) (h : Trans s t a s') {id : EvtOperID abi}
    (href : s'.Refers id) : s.Refers id ∨ s.manger.isRegedOperID id = tosYes ∧ s'.manger = s.manger := by
  have hT := tables_reach hr
  cases href with
  | sub hlt hrow hid =>
    obtain ⟨hlt₀, hold | ⟨-, ids, args, env, hc, -⟩⟩ := h.subRow hT hlt hrow
    · exact .inl (.sub hlt₀ hold hid)
    · exact .inl (.call hc (by rw [← hid]; rfl))
  | pub hlt hrow hf hid =>
    rcases (h.pubMove hT).rest (pubInv_reach hr) (pubRows_reach hr) (fun u hu => h.calls_ne hu) hrow hf with
      ⟨hold, hf⟩ | ⟨c, hc, hins⟩
    · have hHas : s.manger.HasTables := hT.resolve_left fun hN => by simp [Manger.pubRow, hN.pub] at hold
      exact .inl (.pub (by rwa [(hasTables_trans h hHas).2.pub] at hlt) hold hf hid)
    · exact .inl (.call hc (by rw [hins, hid]))
  | call hc hid =>
    rcases h.inserting hc hid with ⟨d, hd, hid⟩ | hreg
    · exact .inl (.call hd hid)
    · exact .inr hreg

/-! ### Registrations along a run -/

theorem isReged_iff_live {m : Manger abi} {live : Finset (EvtOperID abi)} (h : RegInv m live) (id : EvtOperID abi) :
    m.isRegedOperID id = tosYes ↔ id ∈ live := by
  rcases h with ⟨hN, rfl⟩ | ⟨-, tab, htab, hR⟩
  · simp [Manger.isRegedOperID, hN.reg]
  · exact Manger.isRegedOperID_iff hR htab id

/-- In every run the registry stands for some ids. -/
theorem regInv_reach (h : Reach ok clients s) : ∃ live, RegInv s.manger live :=
  h.induction (P := fun s => ∃ live, RegInv s.manger live) ⟨∅, .inl ⟨.init, rfl⟩⟩ fun _ _ _ _ hr hP _ _ htr => by
    obtain ⟨live, hI⟩ := hP
    exact ⟨_, regInv_trans hI htr⟩

/-- The step unregisters the operator. -/
def State.unregs (s : State abi) (x : Thread × Act abi) (id : EvtOperID abi) : Prop :=
  s.calls x.1 = some (.unregOper id) ∧ ∃ env, x.2 = .run env

/-- An operator stays registered until it is unregistered. -/
theorem isReged_trans (hr : Reach ok clients s) (h : Trans s t a s') {id : EvtOperID abi}
    (hid : s.manger.isRegedOperID id = tosYes) (hno : ¬ s.unregs (t, a) id) :
    s'.manger.isRegedOperID id = tosYes := by
  obtain ⟨live, hI⟩ := regInv_reach hr
  have hlive := (isReged_iff_live hI id).mp hid
  refine (isReged_iff_live (regInv_trans hI h) id).mpr ?_
  unfold State.liveAfter
  split
  · rename_i args env hc ha
    unfold regOut
    cases (s.manger.doRegOper args env).2.1 with
    | none => exact hlive
    | some x => exact Finset.mem_insert_of_mem hlive
  · rename_i id' env hc ha
    exact Finset.mem_erase.mpr ⟨fun heq => hno ⟨by rw [heq]; exact hc, env, ha⟩, hlive⟩
  · exact hlive

/-- **References and registrations.** -/
theorem referential_trans (hr : Reach ok clients s) (hR : Referential s) (h : Trans s t a s')
    (hok : ∀ id, s.unregs (t, a) id → ¬ s.Refers id) : Referential s' := by
  intro id href
  rcases h.refers hr href with hold | ⟨hreg, hm⟩
  · exact isReged_trans hr h (hR id hold) fun hun => hok id hun hold
  · rw [hm]
    exact hreg

theorem unrefers_iff (hr : Reach ok clients s) :
    s.unrefers (t, a) = true ↔ ∀ id, s.unregs (t, a) id → ¬ s.Refers id := by
  unfold State.unrefers
  split
  · rename_i id env hc ha
    rw [Bool.not_eq_true', ← Bool.not_eq_true, refersTo_iff hr]
    constructor
    · intro hno id' hun
      obtain rfl := Call.unregOper.inj (Option.some.inj (hc.symm.trans hun.1))
      exact hno
    · exact fun h => h id ⟨hc, env, ha⟩
  · rename_i hno
    refine iff_of_true rfl fun id hun => ?_
    obtain ⟨hc, env, ha⟩ := hun
    exact absurd ha (hno id env hc)

/-- The states of runs whose steps unregister nobody that is spoken of. -/
theorem referential_reach (h : Reach (fun s x => s.unrefers x = true) clients s) : Referential s := by
  refine h.induction (P := Referential) (fun id href => ?_) fun s s' t a hr hR hok _ htr =>
    referential_trans hr hR htr ((unrefers_iff hr).mp hok)
  cases href with
  | sub hlt hr => simp [State.init, Manger.init, Manger.subRow] at hr
  | pub hlt hr => simp [State.init, Manger.init, Manger.pubRow] at hr
  | call hc => simp [State.init] at hc

/-- A step that unregisters an operator that is spoken of leaves it spoken of. -/
theorem not_referential_of_unregs (hr : Reach ok clients s) (hn : next s (t, a) = some s') {id : EvtOperID abi}
    (hun : s.unregs (t, a) id) (href : s.Refers id) : ¬ Referential s' := by
  obtain ⟨hc, env, ha⟩ := hun
  have ha : a = .run env := ha
  subst ha
  have htr := (next_trans hn).2
  have hm := unregOper_next hc hn
  rw [Manger.unregOper_only] at hm
  have href' : s'.Refers id := by
    cases href with
    | sub hlt hrow hid => exact .sub (by rw [hm]; exact hlt) (by rw [hm]; exact hrow) hid
    | pub hlt hrow hf hid =>
      have hmove := htr.pubMove (tables_reach hr)
      exact .pub (by rw [hm]; exact hlt) (by rw [hm]; exact hrow)
        (hmove.not_fills (pubRows_reach hr) (fun u hu => htr.calls_ne hu) hrow hf) hid
    | @call u c hcall hid =>
      have hu : u ≠ t := by
        intro hut
        subst hut
        obtain rfl := Option.some.inj (hc.symm.trans hcall)
        simp [Call.inserting] at hid
      exact .call (by rw [htr.calls_ne hu]; exact hcall) hid
  intro hR
  obtain ⟨live, hI⟩ := regInv_reach hr
  have hmem := (isReged_iff_live (regInv_trans hI (next_trans hn).2) id).mp (hR id href')
  have hlive : s.liveAfter (t, .run env) live = live.erase id := by simp [State.liveAfter, show s.calls t = _ from hc]
  rw [hlive] at hmem
  exact absurd rfl (Finset.mem_erase.mp hmem).1

/-- Between calls, every row belongs to a registered operator. -/
theorem rows_reged (hR : Referential s) (hidle : ∀ u, s.calls u = none) :
    (∀ row r, row < s.manger.maySubEvtNumMax.toNat → s.manger.subRow row = some r →
      s.manger.isRegedOperID r.operID = tosYes) ∧
    ∀ row p r, row < s.manger.mayPubEvtNumMax.toNat → s.manger.pubRow row = some (p, r) →
      s.manger.isRegedOperID r.operID = tosYes := by
  refine ⟨fun row r hlt hrow => hR _ (.sub hlt hrow rfl), fun row p r hlt hrow => hR _ (.pub hlt hrow ?_ rfl)⟩
  rintro ⟨u, c, hc, -⟩
  simp [hidle u] at hc

/-! ### Whose row it is -/

/-- How often the id was handed out so far. -/
def State.regs (s : State abi) (id : EvtOperID abi) : ℕ := s.log.count (.reged id)

/-- A state with the registration that each row of the subscription table was inserted for: the one that was current
when the call found its operator registered. -/
structure OwnRun (abi : Abi) where
  state : State abi
  row : ℕ → ℕ
  found : Thread → ℕ

/-- A step of the system, followed. -/
def OwnRun.next (x : OwnRun abi) (y : Thread × Act abi) : Option (OwnRun abi) :=
  (Evt.next x.state y).map fun s' =>
    match x.state.calls y.1, y.2 with
    | some (.subEvts id _ _ false), .run _ => ⟨s', x.row, Function.update x.found y.1 (x.state.regs id)⟩
    | some (.subEvts _ _ _ true), .run _ =>
      ⟨s', fun row => if (x.state.manger.subRow row).isNone then x.found y.1 else x.row row, x.found⟩
    | _, _ => ⟨s', x.row, x.found⟩

/-- The runs, followed, whose steps unregister nobody that is spoken of. -/
def OwnRun.Reach (clients : ℕ) (x : OwnRun abi) : Prop :=
  Runs.ReachUnder OwnRun.next (fun x y => x.state.unrefers y = true) ⟨State.init clients, fun _ => 0, fun _ => 0⟩ x

/-- An id that is handed out was not registered. -/
theorem regOper_fresh (hr : Reach ok clients s) {args : EvtOperArgs} {id : EvtOperID abi}
    (hid : (s.manger.doRegOper args env).2.1 = some id) : s.manger.isRegedOperID id ≠ tosYes := by
  obtain ⟨live, hI⟩ := regInv_reach hr
  rw [Ne, isReged_iff_live hI]
  rcases hI with ⟨hN, -⟩ | ⟨-, tab, htab, hR⟩
  · simp [Manger.doRegOper, hN.reg] at hid
  · have hstep := (Manger.doRegOper_step hR htab args env).1
    rcases Manger.doRegOper_cases htab args env with ⟨-, hout⟩ | ⟨i, -, ⟨-, hout⟩ | ⟨-, hout⟩⟩
    · simp [hout] at hid
    · simp [hout] at hid
    · rw [hout] at hstep hid
      obtain rfl := Option.some.inj hid
      exact hstep.fresh.2

/-- A step hands an id out in the section of a `regOper` only. -/
theorem Trans.regs (h : Trans s t a s') (id : EvtOperID abi) :
    s'.regs id = s.regs id ∨ ∃ args env, (s.manger.doRegOper args env).2.1 = some id := by
  have hsame : ∀ {os : List (Obs abi)}, s'.log = s.log ++ os → os.count (.reged id) = 0 → s'.regs id = s.regs id := by
    intro os hlog hos
    rw [State.regs, hlog, List.count_append, hos]
    rfl
  cases h with
  | table ha hc htab =>
    cases htab with
    | @reg args r id' m hm =>
      by_cases hid : id' = some id
      · exact .inr ⟨args, _, by rw [hm]; exact hid⟩
      · refine .inl (hsame rfl ?_)
        cases id' with
        | none => rfl
        | some x => simpa [List.count_cons] using fun heq : x = id => hid (by rw [heq])
    | regCheck | pubCheck | pubNext | pubFree | pubStore | pubFill | subCheck | postCheck | postLoad =>
      exact .inl (hsame rfl rfl)
    | _ => exact .inl (hsame rfl (by simp))
  | call | halt | cancelJoin | wait | wake | cancelWait | rdlock | move | cancelCb =>
    exact .inl (hsame (List.append_nil _).symm rfl)
  | post | signal => exact .inl (by simp [State.regs, List.count_append])
  | life ha hc hl =>
    rcases hl.log_eq with hlog | ⟨r, hlog⟩
    · exact .inl (hsame (hlog.trans (List.append_nil _).symm) rfl)
    · exact .inl (hsame hlog (by simp))
  | take | noTable | endDispatch | compare | callSuber | cbRead => exact .inl (hsame rfl (by simp))

/-- What is spoken of is not handed out. -/
theorem regs_trans (hr : Reach ok clients s) (hR : Referential s) (h : Trans s t a s') {id : EvtOperID abi}
    (href : s.Refers id) : s'.regs id = s.regs id := by
  rcases h.regs id with hsame | ⟨args, env, hid⟩
  · exact hsame
  · exact absurd (hR id href) (regOper_fresh hr hid)

theorem OwnRun.next_eq_some {x x' : OwnRun abi} {y : Thread × Act abi} (h : x.next y = some x') :
    Evt.next x.state y = some x'.state := by
  obtain ⟨s', hs, hx⟩ := Option.map_eq_some_iff.mp h
  rw [hs, ← hx]
  split <;> rfl

/-- Every row was inserted for the registration that is current, and so it will be for every insertion on its way. -/
structure OwnInv (x : OwnRun abi) : Prop where
  row : ∀ row r, row < x.state.manger.maySubEvtNumMax.toNat → x.state.manger.subRow row = some r →
    x.row row = x.state.regs r.operID
  found : ∀ t id ids args, x.state.calls t = some (.subEvts id ids args true) → x.found t = x.state.regs id

/-- What the step remembers of the rows. -/
theorem OwnRun.next_row {x x' : OwnRun abi} {y : Thread × Act abi} (h : x.next y = some x') (row : ℕ) :
    (∀ r, x.state.manger.subRow row = some r → x'.row row = x.row row) ∧
      (x.state.manger.subRow row = none → ∀ id ids args env, x.state.calls y.1 = some (.subEvts id ids args true) →
        y.2 = .run env → x'.row row = x.found y.1) := by
  obtain ⟨s', -, rfl⟩ := Option.map_eq_some_iff.mp h
  split
  · rename_i hc ha
    exact ⟨fun r hr => rfl, fun hnone id ids args env hc' ha' => by simp [hc] at hc'⟩
  · exact ⟨fun r hr => by simp [hr], fun hnone id ids args env hc' ha' => by simp [hnone]⟩
  · rename_i hno hno'
    exact ⟨fun r hr => rfl, fun hnone id ids args env hc' ha' => absurd ha' (hno' id ids args env hc')⟩

/-- What it remembers of the check. -/
theorem OwnRun.next_found {x x' : OwnRun abi} {y : Thread × Act abi} (h : x.next y = some x') :
    (∀ u, u ≠ y.1 → x'.found u = x.found u) ∧
      ∀ id ids args env, x.state.calls y.1 = some (.subEvts id ids args false) → y.2 = .run env →
        x'.found y.1 = x.state.regs id := by
  obtain ⟨s', -, rfl⟩ := Option.map_eq_some_iff.mp h
  split
  · rename_i id ids args env hc ha
    refine ⟨fun u hu => Function.update_of_ne hu _ _, fun id' ids' args' env' hc' ha' => ?_⟩
    obtain ⟨rfl, -⟩ := Call.subEvts.inj (Option.some.inj (hc.symm.trans hc'))
    exact Function.update_self ..
  · rename_i hc ha
    exact ⟨fun u hu => rfl, fun id ids args env hc' ha' => by simp [hc] at hc'⟩
  · rename_i hno hno'
    exact ⟨fun u hu => rfl, fun id ids args env hc' ha' => absurd ha' (hno id ids args env hc')⟩

/-- A `subEvts` goes on to the table from its check. -/
theorem Trans.subChecked (h : Trans s t a s') {id : EvtOperID abi} {ids : List EvtID} {args : EvtSubArgs}
    (hc' : s'.calls t = some (.subEvts id ids args true)) :
    s'.log = s.log ∧ ∃ env, s.calls t = some (.subEvts id ids args false) ∧ a = .run env := by
  cases h with
  | @call api => cases api <;> simp [Api.toCall] at hc'
  | @table env c m n c' os ha hc htab =>
    obtain rfl : c' = some (.subEvts id ids args true) := by simpa using hc'
    cases htab with
    | subCheck => exact ⟨List.append_nil _, env, hc, ha⟩
  | life ha hc hl => cases hl <;> simp at hc'
  | cancelJoin | post | signal => simp at hc'
  | halt hh => cases hh <;> simp_all
  | endDispatch ht hc =>
    subst ht
    simp [State.endDispatch, hc] at hc'
  | _ => simp_all

theorem ownInv_next {x x' : OwnRun abi} {y : Thread × Act abi} (hr : Reach ok clients x.state)
    (hR : Referential x.state) (hI : OwnInv x) (hn : x.next y = some x') : OwnInv x' := by
  have htr := (next_trans (OwnRun.next_eq_some hn)).2
  constructor
  · intro row r hlt hrow
    obtain ⟨hlt₀, hold | ⟨hnone, ids, args, env, hc, ha⟩⟩ := htr.subRow (tables_reach hr) hlt hrow
    · rw [(OwnRun.next_row hn row).1 r hold, hI.row row r hlt₀ hold]
      exact (regs_trans hr hR htr (.sub hlt₀ hold rfl)).symm
    · rw [(OwnRun.next_row hn row).2 hnone _ _ _ _ hc ha, hI.found _ _ _ _ hc]
      exact (regs_trans hr hR htr (.call hc rfl)).symm
  · intro u id ids args hc'
    by_cases hu : u = y.1
    · subst hu
      obtain ⟨hlog, env, hc, ha⟩ := htr.subChecked hc'
      rw [(OwnRun.next_found hn).2 id ids args env hc ha, State.regs, State.regs, hlog]
    · rw [htr.calls_ne hu] at hc'
      rw [(OwnRun.next_found hn).1 u hu, hI.found u id ids args hc']
      exact (regs_trans hr hR htr (.call hc' rfl)).symm

theorem ownRun_reach {x : OwnRun abi} (h : x.Reach clients) :
    Reach (fun s y => s.unrefers y = true) clients x.state ∧ OwnInv x := by
  refine Runs.ReachUnder.invariant
    (P := fun x : OwnRun abi => Reach (fun s y => s.unrefers y = true) clients x.state ∧ OwnInv x) ?_ ?_ h
  · refine ⟨.refl, fun row r hlt hrow => ?_, fun t id ids args hc => ?_⟩
    · simp [State.init, Manger.init, Manger.subRow] at hrow
    · simp [State.init] at hc
  · intro x x' y _ hP hok hn
    exact ⟨hP.1.tail y hok (OwnRun.next_eq_some hn), ownInv_next hP.1 (referential_reach hP.1) hP.2 hn⟩

/-- **When the rows belong to registered operators.**  In every run whose steps unregister nobody that a row, or a call
on its way to insert one, speaks of: whatever is spoken of is registered, so that between calls every row is an
operator's that is; a callback is called for the registration that its row was inserted for; and an id that is handed
out is spoken of nowhere.  A step keeps this if and only if it is such a step. -/
theorem rows_belong_iff {x : OwnRun abi} (h : x.Reach clients) :
    Referential x.state ∧
    ((∀ u, x.state.calls u = none) →
      (∀ row r, row < x.state.manger.maySubEvtNumMax.toNat → x.state.manger.subRow row = some r →
        x.state.manger.isRegedOperID r.operID = tosYes) ∧
      ∀ row p r, row < x.state.manger.mayPubEvtNumMax.toNat → x.state.manger.pubRow row = some (p, r) →
        x.state.manger.isRegedOperID r.operID = tosYes) ∧
    (∀ q slot k row num r, x.state.procer q = .dispatch slot k (.call row num) → x.state.manger.subRow row = some r →
      x.state.manger.isRegedOperID r.operID = tosYes ∧ x.row row = x.state.regs r.operID) ∧
    (∀ t env args id s', x.state.calls t = some (.regOper args true) → next x.state (t, .run env) = some s' →
      (x.state.manger.doRegOper args env).2.1 = some id → ¬ s'.Refers id) ∧
    ∀ t a s', next x.state (t, a) = some s' → (Referential s' ↔ x.state.unrefers (t, a) = true) := by
  obtain ⟨hr, hI⟩ := ownRun_reach h
  have hR := referential_reach hr
  refine ⟨hR, rows_reged hR, ?_, ?_, ?_⟩
  · intro q slot k row num r hp hrow
    have hlt : row < x.state.manger.maySubEvtNumMax.toNat := (loopInv_reach hr q slot k _ hp).1.1
    exact ⟨hR _ (.sub hlt hrow rfl), hI.row row r hlt hrow⟩
  · intro t env args id s' _ hn hid href
    have hfresh := regOper_fresh hr hid
    rcases (next_trans hn).2.refers hr href with hold | ⟨hreg, -⟩
    · exact hfresh (hR id hold)
    · exact hfresh hreg
  · intro t a s' hn
    rw [unrefers_iff hr]
    constructor
    · intro hR' id hun href
      exact not_referential_of_unregs hr hn hun href hR'
    · exact referential_trans hr hR (next_trans hn).2

/-- An operator subscribes twice, and leaves in the order of the documented call flow. -/
def subscribedTwice : List (Thread × Act lp64) :=
  [(.client 0, .call (.initEvtManger (some ⟨0, 0, 2, 0⟩))), (.client 0, .go),
   (.client 0, .call (.regOper ⟨0⟩)), (.client 0, .go), (.client 0, .go),
   (.client 0, .call (.subEvts 0 [evtIDTestKeepAlive] ⟨1, 1⟩)), (.client 0, .go), (.client 0, .go),
   (.client 0, .call (.subEvts 0 [evtIDTestKeepAlive] ⟨1, 1⟩)), (.client 0, .go), (.client 0, .go),
   (.client 0, .call (.unsubEvts 0)), (.client 0, .go), (.client 0, .call (.unpubEvts 0)), (.client 0, .go),
   (.client 0, .call (.unregOper 0)), (.client 0, .go)]

/-- Another operator registers, the processor is started, and an event is posted and dispatched up to the callback. -/
def regedAgain : List (Thread × Act lp64) :=
  [(.client 0, .call (.regOper ⟨1⟩)), (.client 0, .go), (.client 0, .go)] ++ enabling (.client 0) ++
    postOf (defineEvtDesc lp64 evtIDTestKeepAlive) ++ (.client 0, .go) :: List.replicate 7 (.procer 0, .go)

/-- The second subscription stays when the operator is gone; and the callback is called for the next operator that gets
the id, which has not subscribed. -/
theorem row_outlives_operator :
    (∃ s : State lp64, Reach (fun _ _ => True) 1 s ∧ (∀ u, s.calls u = none) ∧ ∃ r, s.manger.subRow 1 = some r ∧
      s.manger.isRegedOperID r.operID ≠ tosYes) ∧
    ∃ s : State lp64, Reach (fun _ _ => True) 1 s ∧ s.regs 0 = 2 ∧ callsIn 0 0 s.log = [(0, 1)] := by
  obtain ⟨s, hr, hs⟩ := reach_of_run (fun _ _ => True) 1 subscribedTwice
    (fun s : State lp64 => (s.threads.all fun u => (s.calls u).isNone) &&
      (s.manger.subRow 1).any fun r : Row lp64 => decide (s.manger.isRegedOperID r.operID ≠ tosYes)) (by decide +kernel)
  obtain ⟨u, hu, hus⟩ := reach_of_run (fun _ _ => True) 1 (subscribedTwice ++ regedAgain)
    (fun s : State lp64 => decide (s.regs 0 = 2) && decide (callsIn 0 0 s.log = [(0, 1)])) (by decide +kernel)
  simp only [Bool.and_eq_true, Option.any_eq_true, decide_eq_true_eq] at hs hus
  exact ⟨⟨s, hr, idle_of_threads hr hs.1, hs.2⟩, u, hu, hus⟩

/-- Two operators subscribe and one publishes; the first leaves, its id goes to a third, which subscribes in its place and
is about to be called. -/
def recycledID : List (Thread × Act lp64) :=
  [(.client 0, .call (.initEvtManger (some ⟨0, 0, 2, 0⟩))), (.client 0, .go),
   (.client 0, .call (.regOper ⟨0⟩)), (.client 0, .go), (.client 0, .go),
   (.client 0, .call (.regOper ⟨1⟩)), (.client 0, .go), (.client 0, .go),
   (.client 0, .call (.subEvts 0 [evtIDTestKeepAlive] ⟨1, 1⟩)), (.client 0, .go), (.client 0, .go),
   (.client 0, .call (.subEvts 1 [evtIDTestKeepAlive] ⟨2, 2⟩)), (.client 0, .go), (.client 0, .go)] ++
  (.client 0, .call (.pubEvts 1 [evtIDTestKeepAlive])) :: List.replicate 7 (.client 0, .go) ++
  [(.client 0, .call (.unsubEvts 0)), (.client 0, .go), (.client 0, .call (.unregOper 0)), (.client 0, .go),
   (.client 0, .call (.regOper ⟨2⟩)), (.client 0, .go), (.client 0, .go),
   (.client 0, .call (.subEvts 0 [evtIDTestKeepAlive] ⟨3, 3⟩)), (.client 0, .go), (.client 0, .go)] ++
  enabling (.client 0) ++ postOf (defineEvtDesc lp64 evtIDTestKeepAlive) ++ (.client 0, .go) ::
    List.replicate 5 (.procer 0, .go)

/-- The rows are those of the operators that have the ids now, the second to have id 0 among them. -/
theorem rows_belong_iff_recycled :
    ∃ x : OwnRun lp64, x.state.regs 0 = 2 ∧
      (∃ r, x.state.manger.subRow 0 = some r ∧ r.operID = 0 ∧ x.state.manger.isRegedOperID r.operID = tosYes ∧
        x.row 0 = 2) ∧
      (∃ r, x.state.manger.subRow 1 = some r ∧ r.operID = 1 ∧ x.state.manger.isRegedOperID r.operID = tosYes) ∧
      ∃ p r, x.state.manger.pubRow 0 = some (p, r) ∧ r.operID = 1 ∧
        x.state.manger.isRegedOperID r.operID = tosYes := by
  obtain ⟨x, hr, hx⟩ : ∃ x : OwnRun lp64, x.Reach 1 ∧ ((x.state.threads.all fun u => (x.state.calls u).isNone) &&
      decide (x.state.manger.maySubEvtNumMax = 2) && decide (x.state.manger.mayPubEvtNumMax = 16) &&
      decide (x.state.procer 0 = .dispatch 0 0 (.call 0 0)) && decide (x.state.regs 0 = 2) &&
      (x.state.manger.subRow 0).any (fun r : Row lp64 => r.operID == 0) &&
      (x.state.manger.subRow 1).any (fun r : Row lp64 => r.operID == 1) &&
      (x.state.manger.pubRow 0).any (fun y : ℕ × Row lp64 => y.2.operID == 1)) = true :=
    Runs.exists_reach_of_runUnder recycledID _ (by decide +kernel)
  simp only [Bool.and_eq_true, decide_eq_true_eq, Option.any_eq_true, beq_iff_eq] at hx
  obtain ⟨⟨⟨⟨⟨⟨⟨hidle, hmax⟩, hpub⟩, hp⟩, hregs⟩, r, hr0, hid⟩, r', hr1, hid'⟩, ⟨p, r''⟩, hrow, hid''⟩ := hx
  have h := rows_belong_iff hr
  have hnone := idle_of_threads (ownRun_reach hr).1 hidle
  have hcall := h.2.2.1 0 0 0 0 0 r hp hr0
  refine ⟨x, hregs, ⟨r, hr0, hid, hcall.1, ?_⟩, ⟨r', hr1, hid', ?_⟩, p, r'', hrow, hid'', ?_⟩
  · rw [hcall.2, hid, hregs]
  · exact (h.2.1 hnone).1 1 r' (by simp [hmax]) hr1
  · exact (h.2.1 hnone).2 0 p r'' (by simp [hpub]) hrow

end PlatIF.Evt
