import PlatIF.Evt.DispatchLoop
import PlatIF.Evt.Rep

/-!
# Accesses to the tables

Every loop over a table and every loop over the identifiers of a row has a bound of its own.  `State.accesses` lists
what a step reads or writes by an index, in the tables and in the rows.  Two loops run one turn too far: that of
`pubEvts` over the rows, when it finds all of them used, and that of a dispatch over the identifiers of a row.

* `Manger.PubFits` — where `__PLT_EVT_doPubEvts` can be;
* `accesses_iff` — which accesses are outside;
* `State.findsNull` — the step does not lead to one of them;
* `accesses_in_bounds` — runs of such steps stay inside; the other steps come to an access outside.
-/

namespace PlatIF.Evt

variable {abi : Abi} {s s' : State abi} {t : Thread} {a : Act abi} {env : Env} {clients q slot k : ℕ}
  {ok : State abi → Thread × Act abi → Prop}

/-! ### Accesses -/

/-- An access by an index. -/
inductive Access where
  | regedOperObjs (i : ℕ)
  | pubTable (row : ℕ)
  | subTable (row : ℕ)
  /-- To `EvtIDs[num]` of a row with this `NumIDs`. -/
  | evtIDs (numIDs num : ℕ)
  deriving DecidableEq

/-- The index is below the length of the array. -/
def Access.inBounds (m : Manger abi) : Access → Bool
  | .regedOperObjs i => m.regedOperObjs.any fun tab => decide (i < tab.len)
  | .pubTable row => m.pubTable.any fun tab => decide (row < tab.len)
  | .subTable row => m.subTable.any fun tab => decide (row < tab.len)
  | .evtIDs numIDs num => decide (num < numIDs)

/-- The entries that a loop `for(i = 0; i < max; i++)` looks at, up to the first that ends it. -/
def Table.visited {α : Type*} (tab : Table α) (max : ℕ) (stop : Option α → Bool) : List ℕ :=
  (List.range max).filter fun i => (List.range i).all fun j => !stop (tab.entry j)

/-- Such a loop, over a table that may be missing. -/
def tableAccesses {α : Type*} (tab : Option (Table α)) (max : ℕ) (stop : Option α → Bool) (access : ℕ → Access) :
    List Access :=
  tab.elim [] fun tab => (tab.visited max stop).map access

/-- The identifiers of a row are copied, `num < NumIDs`. -/
def copyAccesses (evtIDs : List EvtID) : List Access := (List.range evtIDs.length).map (.evtIDs evtIDs.length)

namespace Manger

variable (m : Manger abi)

/-- A loop over `_mRegedOperObjs`. -/
def regAccesses (stop : Option (EvtOperObj abi) → Bool) : List Access :=
  tableAccesses m.regedOperObjs m.mayRegOperNumMax.toNat stop .regedOperObjs

/-- `__PLT_EVT_isRegedOperID`. -/
def isRegedAccesses (id : EvtOperID abi) : List Access :=
  if m.regedOperObjs.isNone || decide (m.mayRegOperNumMax.toNat ≤ id.toNat) then [] else [.regedOperObjs id.toNat]

/-- A loop over `_mEvtPSDB_SubTable`. -/
def subAccesses (stop : Option (Row abi) → Bool) : List Access :=
  tableAccesses m.subTable m.maySubEvtNumMax.toNat stop .subTable

/-- The loop of `PLT_EVT_unpubEvts`. -/
def pubAccesses (stop : Option (ℕ × Row abi) → Bool) : List Access :=
  tableAccesses m.pubTable m.mayPubEvtNumMax.toNat stop .pubTable

/-- The accesses of the next step of a call. -/
def callAccesses (env : Env) : Call abi → List Access
  | .regOper _ true => m.regAccesses Option.isNone
  | .unregOper id => m.regAccesses fun o => o.any fun o => o.evtOperID == id
  | .pubEvts id _ .check | .subEvts id _ _ false | .postEvtSRT id _ .check => m.isRegedAccesses id
  | .pubEvts _ _ (.scan row) => if m.mayPubEvtNumMax.toNat < row then [] else [.pubTable row]
  | .pubEvts _ _ (.store row) => [.pubTable row]
  | .pubEvts _ ids (.fill _ _ (.evtID num)) => [.evtIDs ids.length num]
  | .unpubEvts id => m.pubAccesses fun r => r.any fun r => r.2.roleType == .evtPuber && r.2.operID == id
  | .subEvts id ids args true =>
    m.subAccesses Option.isNone ++
      if (m.doSubEvts id ids args env).1 = .success then copyAccesses ids else []
  | .unsubEvts id => m.subAccesses fun r => r.any fun r => r.roleType == .evtSuber && r.operID == id
  | _ => []

/-- The accesses of the next step of a dispatch. -/
def dispatchAccesses : DispatchPc → List Access
  | .row row => if m.maySubEvtNumMax.toNat ≤ row then [] else [.subTable row]
  | .cmpClass row num | .cmpClassmate row num =>
    (m.subRow row).elim [] fun r => if r.evtIDs.length < num then [] else [.evtIDs r.evtIDs.length num]
  | _ => []

/-- The accesses of the next step of a processor. -/
def procerAccesses : ProcerPc → List Access
  | .dispatch _ _ pc => m.dispatchAccesses pc
  | _ => []

/-- The next step of a call does not test row `_mMayPubEvtNumMax` of the publication table. -/
def callInside : Call abi → Bool
  | .pubEvts _ _ (.scan row) => decide (row ≠ m.mayPubEvtNumMax.toNat)
  | _ => true

/-- The next step of a dispatch does not compare the word behind the identifiers of its row. -/
def dispatchInside : DispatchPc → Bool
  | .cmpClass row num | .cmpClassmate row num => (m.subRow row).all fun r => decide (num ≠ r.evtIDs.length)
  | _ => true

def procerInside : ProcerPc → Bool
  | .dispatch _ _ pc => m.dispatchInside pc
  | _ => true

end Manger

/-- The accesses of a step. -/
def State.accesses (s : State abi) (x : Thread × Act abi) : List Access :=
  match s.calls x.1, x.1, x.2 with
  | some c, _, .run env => s.manger.callAccesses env c
  | none, .procer q, .run _ => s.manger.procerAccesses (s.procer q)
  | _, _, _ => []

/-- The step is not the last test of one of the two loops with `<=`: of `pubEvts` over the rows, or of a dispatch over
the identifiers. -/
def State.staysInside (s : State abi) (x : Thread × Act abi) : Bool :=
  match s.calls x.1, x.1, x.2 with
  | some c, _, .run _ => s.manger.callInside c
  | none, .procer q, .run _ => s.manger.procerInside (s.procer q)
  | _, _, _ => true

/-! ### Where `__PLT_EVT_doPubEvts` can be -/

/-- The next store is inside the row. -/
def FillPc.Fits (evtIDs : List EvtID) : FillPc → Prop
  | .evtID num => num < evtIDs.length
  | _ => True

theorem FillPc.fits_next {ids : List EvtID} {pc pc' : FillPc} (h : pc.next ids = some pc') : pc'.Fits ids := by
  cases pc with
  | roleType | numIDs =>
    obtain rfl := Option.some.inj h
    trivial
  | evtPuberID | evtID num =>
    simp only [FillPc.next, Option.ite_none_right_eq_some, Option.some.injEq] at h
    obtain ⟨hlt, rfl⟩ := h
    exact hlt

/-- The loop has come no further than one row behind the table, and has stored its row inside. -/
def Manger.PubFits (m : Manger abi) (evtIDs : List EvtID) : PubPc → Prop
  | .check => True
  | .scan row => m.HasTables ∧ row ≤ m.mayPubEvtNumMax.toNat
  | .store row => m.HasTables ∧ row < m.mayPubEvtNumMax.toNat
  | .fill row _ pc => m.HasTables ∧ row < m.mayPubEvtNumMax.toNat ∧ pc.Fits evtIDs

/-- Every `pubEvts` in progress is at such a place. -/
def PubInv (s : State abi) : Prop :=
  ∀ t id ids pc, s.calls t = some (.pubEvts id ids pc) → s.manger.PubFits ids pc

theorem pubFits_trans {ids : List EvtID} {pc : PubPc} (h : Trans s t a s') (hf : s.manger.PubFits ids pc) :
    s'.manger.PubFits ids pc := by
  cases pc with
  | check => trivial
  | scan row | store row | fill row pRow =>
    obtain ⟨hT', hlim⟩ := hasTables_trans h hf.1
    refine ⟨hT', ?_⟩
    rw [hlim.pub]
    exact hf.2

/-- A step of `pubEvts` is one of its function. -/
theorem pubEvts_next {id : EvtOperID abi} {ids : List EvtID} {pc : PubPc} (hc : s.calls t = some (.pubEvts id ids pc))
    (h : next s (t, a) = some s') : ∃ env, a = .run env ∧ s.pubEvts t id ids pc env = some s' := by
  have hh : ¬ s.halted.isSome = true := by simp [(next_trans h).1]
  unfold next at h
  rw [if_neg hh] at h
  simp only [hc] at h
  cases a with
  | run env => exact ⟨env, rfl, h⟩
  | call | cbRead | cbRet | cancel | wake => simp at h

/-- A registered operator was registered in the table. -/
theorem Manger.isReged_ne_none {m : Manger abi} {id : EvtOperID abi} (h : m.isRegedOperID id = tosYes) :
    m.regedOperObjs ≠ none := by
  intro hnone
  simp [Manger.isRegedOperID, hnone] at h

theorem pc_of_setCall {x : State abi} {id : EvtOperID abi} {ids : List EvtID} {pc pc' : PubPc}
    (h : (x.setCall t (some (.pubEvts id ids pc))).calls t = some (.pubEvts id ids pc')) : pc = pc' := by
  simpa using h

/-- A step of `pubEvts` itself. -/
theorem pubEvts_fits (hT : s.manger.NoTables ∨ s.manger.HasTables) {id : EvtOperID abi} {ids : List EvtID}
    {pc pc' : PubPc} (hc : s.calls t = some (.pubEvts id ids pc)) (hf : s.manger.PubFits ids pc)
    (h : s.pubEvts t id ids pc env = some s') (hc' : s'.calls t = some (.pubEvts id ids pc')) :
    s.manger.PubFits ids pc' := by
  cases pc with
  | check =>
    simp only [State.pubEvts] at h
    split at h
    · simp [← Option.some.inj h] at hc'
    · rename_i hr
      split at h
      · simp [← Option.some.inj h] at hc'
      · -- a registered operator says that there are tables
        have hreg := Manger.isReged_ne_none (not_not.mp hr)
        have hT' : s.manger.HasTables := hT.resolve_left fun hN => hreg hN.reg
        obtain rfl := pc_of_setCall (Option.some.inj h ▸ hc')
        exact ⟨hT', Nat.zero_le _⟩
  | scan row =>
    obtain ⟨hT', hle⟩ := hf
    obtain ⟨tab, htab, hlen⟩ := Option.map_eq_some_iff.mp hT'.pub
    simp only [State.pubEvts, htab, if_neg (Nat.not_lt.mpr hle), hlen] at h
    split at h
    · -- the process ended where it was
      have hsame : s'.calls t = s.calls t := by rw [← Option.some.inj h, State.halt]
      rw [hsame, hc, Option.some.injEq, Call.pubEvts.injEq] at hc'
      exact hc'.2.2 ▸ ⟨hT', hle⟩
    · rename_i hlt
      have hrow : row < s.manger.mayPubEvtNumMax.toNat := Nat.not_le.mp hlt
      split at h
      · obtain rfl := pc_of_setCall (Option.some.inj h ▸ hc')
        exact ⟨hT', hrow⟩
      · split at h
        · simp [← Option.some.inj h] at hc'
        · obtain rfl := pc_of_setCall (Option.some.inj h ▸ hc')
          exact ⟨hT', hrow⟩
  | store row =>
    obtain rfl := pc_of_setCall (Option.some.inj h ▸ hc')
    exact ⟨hf.1, hf.2, trivial⟩
  | fill row pRow pc =>
    obtain ⟨hT', hrow, hfill⟩ := hf
    simp only [State.pubEvts] at h
    split at h
    · -- the process ended where it was
      have hsame : s'.calls t = s.calls t := by rw [← Option.some.inj h, State.halt]
      rw [hsame, hc, Option.some.injEq, Call.pubEvts.injEq] at hc'
      exact hc'.2.2 ▸ ⟨hT', hrow, hfill⟩
    · split at h
      · rename_i pc'' hnext
        obtain rfl := pc_of_setCall (Option.some.inj h ▸ hc')
        exact ⟨hT', hrow, FillPc.fits_next hnext⟩
      · simp [← Option.some.inj h] at hc'

/-- A `pubEvts` in progress was one before the step. -/
theorem TableStep.pub_rest {c : Call abi} {m : Manger abi} {n : ℕ} {c' : Option (Call abi)} {os : List (Obs abi)}
    (h : TableStep s t env c m n c' os) {id : EvtOperID abi} {ids : List EvtID} {pc : PubPc}
    (hc : c' = some (.pubEvts id ids pc)) : ∃ pc₀, c = .pubEvts id ids pc₀ := by
  cases h <;> simp_all

theorem pubInv_step (hI : PubInv s) (hT : s.manger.NoTables ∨ s.manger.HasTables) (h : next s (t, a) = some s') :
    PubInv s' := by
  intro u id ids pc hc
  have htr := (next_trans h).2
  by_cases hu : u = t
  · subst hu
    have hkeep : s.manger.PubFits ids pc → s'.manger.PubFits ids pc := pubFits_trans htr
    cases htr with
    | @call api =>
      simp only [State.setCall, Function.update_self, Option.some.injEq] at hc
      cases api <;> simp only [Api.toCall, reduceCtorEq, Call.pubEvts.injEq] at hc
      exact hc.2.2 ▸ trivial
    | table ha hc₀ htab =>
      obtain ⟨pc₀, rfl⟩ := htab.pub_rest (by simpa using hc)
      obtain ⟨env, -, hstep⟩ := pubEvts_next hc₀ h
      exact hkeep (pubEvts_fits hT hc₀ (hI u id ids pc₀ hc₀) hstep hc)
    | life ha hc₀ hl => cases hl <;> simp at hc
    | cancelJoin | post | signal => simp at hc
    | _ => exact hkeep (hI u id ids pc hc)
  · rw [htr.calls_ne hu] at hc
    exact pubFits_trans htr (hI u id ids pc hc)

theorem pubInv_reach (h : Reach ok clients s) : PubInv s := by
  refine Runs.ReachUnder.invariant (P := PubInv) (fun t id ids pc hc => ?_) (fun s s' x hr hI _ hn => ?_) h
  · simp [State.init] at hc
  · exact pubInv_step hI (tables_reach hr) hn

/-! ### Every access but two -/

/-- A loop with the length of its table as bound stays inside. -/
theorem tableAccesses_inBounds {α : Type*} {m : Manger abi} {tab : Option (Table α)} {max : ℕ} {access : ℕ → Access}
    (hmax : ∀ x, tab = some x → x.len = max)
    (hacc : ∀ i, (access i).inBounds m = tab.any fun x => decide (i < x.len)) (stop : Option α → Bool) :
    ∀ acc ∈ tableAccesses tab max stop access, acc.inBounds m = true := by
  intro acc hmem
  cases htab : tab with
  | none => simp [tableAccesses, htab] at hmem
  | some x =>
    simp only [tableAccesses, htab, Option.elim_some, List.mem_map] at hmem
    obtain ⟨i, hi, rfl⟩ := hmem
    have hlt : i < max := List.mem_range.mp (List.mem_filter.mp hi).1
    rw [hacc, htab, Option.any_some]
    exact decide_eq_true (by rw [hmax x htab]; exact hlt)

theorem copyAccesses_inBounds (m : Manger abi) (ids : List EvtID) :
    ∀ acc ∈ copyAccesses ids, acc.inBounds m = true := by
  intro acc hacc
  obtain ⟨num, hnum, rfl⟩ := List.mem_map.mp hacc
  exact decide_eq_true (List.mem_range.mp hnum)

namespace Manger

variable {m : Manger abi}

/-- The lengths of the tables that there are. -/
theorem len_eq (hT : m.NoTables ∨ m.HasTables) :
    (∀ tab, m.regedOperObjs = some tab → tab.len = m.mayRegOperNumMax.toNat) ∧
      (∀ tab, m.pubTable = some tab → tab.len = m.mayPubEvtNumMax.toNat) ∧
      ∀ tab, m.subTable = some tab → tab.len = m.maySubEvtNumMax.toNat := by
  rcases hT with hN | hT
  · refine ⟨fun tab h => ?_, fun tab h => ?_, fun tab h => ?_⟩
    · simp [hN.reg] at h
    · simp [hN.pub] at h
    · simp [hN.sub] at h
  · have h1 := hT.reg
    have h2 := hT.pub
    have h3 := hT.sub
    refine ⟨fun tab h => ?_, fun tab h => ?_, fun tab h => ?_⟩
    · simpa [h] using h1
    · simpa [h] using h2
    · simpa [h] using h3

theorem regAccesses_inBounds (hT : m.NoTables ∨ m.HasTables) (stop : Option (EvtOperObj abi) → Bool) :
    ∀ acc ∈ m.regAccesses stop, acc.inBounds m = true :=
  tableAccesses_inBounds (len_eq hT).1 (fun _ => rfl) stop

theorem pubAccesses_inBounds (hT : m.NoTables ∨ m.HasTables) (stop : Option (ℕ × Row abi) → Bool) :
    ∀ acc ∈ m.pubAccesses stop, acc.inBounds m = true :=
  tableAccesses_inBounds (len_eq hT).2.1 (fun _ => rfl) stop

theorem subAccesses_inBounds (hT : m.NoTables ∨ m.HasTables) (stop : Option (Row abi) → Bool) :
    ∀ acc ∈ m.subAccesses stop, acc.inBounds m = true :=
  tableAccesses_inBounds (len_eq hT).2.2 (fun _ => rfl) stop

theorem isRegedAccesses_inBounds (hT : m.NoTables ∨ m.HasTables) (id : EvtOperID abi) :
    ∀ acc ∈ m.isRegedAccesses id, acc.inBounds m = true := by
  intro acc hacc
  unfold isRegedAccesses at hacc
  split at hacc
  · simp at hacc
  · rename_i hno
    simp only [Bool.or_eq_true, Option.isNone_iff_eq_none, decide_eq_true_eq, not_or, Nat.not_le] at hno
    obtain rfl := List.mem_singleton.mp hacc
    rcases hT with hN | hT
    · exact absurd hN.reg hno.1
    · obtain ⟨tab, htab, hlen⟩ := Option.map_eq_some_iff.mp hT.reg
      simpa [Access.inBounds, htab, hlen] using hno.2

/-- **The calls**: only the test of row `_mMayPubEvtNumMax` is outside. -/
theorem callAccesses_iff (hT : m.NoTables ∨ m.HasTables) (env : Env) {c : Call abi}
    (hf : ∀ id ids pc, c = .pubEvts id ids pc → m.PubFits ids pc) :
    (∀ acc ∈ m.callAccesses env c, acc.inBounds m = true) ↔ m.callInside c = true := by
  cases c with
  | initEvtManger | deinitEvtManger | enableEvtManger | disableEvtManger =>
    simp [callAccesses, callInside]
  | regOper args checked =>
    cases checked with
    | false => simp [callAccesses, callInside]
    | true => exact iff_of_true (regAccesses_inBounds hT _) rfl
  | unregOper id => exact iff_of_true (regAccesses_inBounds hT _) rfl
  | unpubEvts id => exact iff_of_true (pubAccesses_inBounds hT _) rfl
  | unsubEvts id => exact iff_of_true (subAccesses_inBounds hT _) rfl
  | subEvts id ids args checked =>
    cases checked with
    | false => exact iff_of_true (isRegedAccesses_inBounds hT id) rfl
    | true =>
      refine iff_of_true (fun acc hacc => ?_) rfl
      rcases List.mem_append.mp hacc with hacc | hacc
      · exact subAccesses_inBounds hT _ acc hacc
      · split at hacc
        · exact copyAccesses_inBounds m ids acc hacc
        · simp at hacc
  | postEvtSRT id arg pc =>
    cases pc with
    | check => exact iff_of_true (isRegedAccesses_inBounds hT id) rfl
    | load | lock | signal => simp [callAccesses, callInside]
  | pubEvts id ids pc =>
    have hpc := hf id ids pc rfl
    cases pc with
    | check => exact iff_of_true (isRegedAccesses_inBounds hT id) rfl
    | scan row =>
      obtain ⟨hT', hle⟩ := hpc
      obtain ⟨tab, htab, hlen⟩ := Option.map_eq_some_iff.mp hT'.pub
      simp only [callAccesses, callInside, if_neg (Nat.not_lt.mpr hle), List.mem_singleton, forall_eq,
        Access.inBounds, htab, Option.any_some, hlen, decide_eq_true_eq]
      omega
    | store row =>
      obtain ⟨hT', hlt⟩ := hpc
      obtain ⟨tab, htab, hlen⟩ := Option.map_eq_some_iff.mp hT'.pub
      simpa [callAccesses, callInside, Access.inBounds, htab, hlen] using hlt
    | fill row pRow pc =>
      refine iff_of_true (fun acc hacc => ?_) rfl
      cases pc with
      | evtID num =>
        obtain rfl := List.mem_singleton.mp hacc
        exact decide_eq_true hpc.2.2
      | _ => simp [callAccesses] at hacc

/-- **The dispatch**: only the comparison of the word behind the identifiers is outside. -/
theorem dispatchAccesses_iff (hT : m.HasTables) {pc : DispatchPc} (hf : m.Fits pc) :
    (∀ acc ∈ m.dispatchAccesses pc, acc.inBounds m = true) ↔ m.dispatchInside pc = true := by
  cases pc with
  | rdlock | call | inCb => simp [dispatchAccesses, dispatchInside]
  | row row =>
    obtain ⟨tab, htab, hlen⟩ := Option.map_eq_some_iff.mp hT.sub
    refine iff_of_true (fun acc hacc => ?_) rfl
    simp only [dispatchAccesses] at hacc
    split at hacc
    · simp at hacc
    · rename_i hlt
      obtain rfl := List.mem_singleton.mp hacc
      simpa [Access.inBounds, htab, hlen] using hlt
  | cmpClass row num =>
    obtain ⟨-, r, hr, hle⟩ := hf
    simp only [dispatchAccesses, dispatchInside, hr, Option.elim_some, Option.all_some, decide_eq_true_eq]
    split
    · rename_i hlt
      exact iff_of_true (fun acc hacc => absurd hacc List.not_mem_nil) (Nat.ne_of_gt hlt)
    · simp only [List.mem_singleton, forall_eq, Access.inBounds, decide_eq_true_eq]
      omega
  | cmpClassmate row num =>
    obtain ⟨-, r, hr, hle⟩ := hf
    simp only [dispatchAccesses, dispatchInside, hr, Option.elim_some, Option.all_some, decide_eq_true_eq,
      if_neg (Nat.not_lt.mpr hle), List.mem_singleton, forall_eq, Access.inBounds]
    omega

end Manger

/-- A step that reads or writes by an index. -/
theorem accesses_iff (h : Reach ok clients s) (x : Thread × Act abi) :
    (∀ acc ∈ s.accesses x, acc.inBounds s.manger = true) ↔ s.staysInside x = true := by
  unfold State.accesses State.staysInside
  split
  · rename_i c env hc _
    exact Manger.callAccesses_iff (tables_reach h) env fun id ids pc hpub =>
      pubInv_reach h _ id ids pc (by rw [hc, hpub])
  · rename_i q env _ _ _
    cases hp : s.procer q with
    | dispatch slot k pc =>
      exact Manger.dispatchAccesses_iff (hasTables_of_alive h (q := q) (by simp [hp, ProcerPc.alive]))
        (loopInv_reach h q slot k pc hp).1
    | _ => simp [Manger.procerAccesses, Manger.procerInside]
  · simp

/-- The last test of the loop of `pubEvts` ends the process. -/
theorem pubEvts_behind (h : Reach ok clients s) (hn : next s (t, a) = some s') {id : EvtOperID abi}
    {ids : List EvtID} (hc : s.calls t = some (.pubEvts id ids (.scan s.manger.mayPubEvtNumMax.toNat))) :
    s'.halted = some .outOfBounds := by
  obtain ⟨env', -, hstep⟩ := pubEvts_next hc hn
  obtain ⟨tab, htab, hlen⟩ := Option.map_eq_some_iff.mp (pubInv_reach h t id ids _ hc).1.pub
  simp only [State.pubEvts, htab, Nat.lt_irrefl, if_false, hlen, le_refl, if_true, Option.some.injEq] at hstep
  rw [← hstep, State.halt]

/-- So that no `pubEvts` reports a full table. -/
theorem pubEvts_result (h : Reach ok clients s) (hn : next s (t, a) = some s') {id : EvtOperID abi} {ids : List EvtID}
    {pc : PubPc} {r : Option TosResult} (hret : Returns s s' t (.pubEvts id ids pc) r) :
    r ≠ some .tooManyPubedEvents := by
  have hc := hret.call
  have hdone := hret.done
  obtain ⟨os, hlog⟩ := hret.result
  have hf := pubInv_reach h t id ids pc hc
  cases (next_trans hn).2 with
  | table ha hc₀ htab =>
    rw [hc, Option.some.injEq] at hc₀
    subst hc₀
    simp only [State.tableStep, List.append_assoc, List.append_cancel_left_eq] at hlog
    cases htab with
    | pubTooMany hlt => exact absurd hf.2 (Nat.not_le.mpr hlt)
    | pubNotReged | pubBug | pubNoMemory | pubDone =>
      have hlast := congrArg List.getLast? hlog
      simp only [List.getLast?_singleton, List.getLast?_concat, Option.some.injEq, Obs.ret.injEq, true_and] at hlast
      simp [← hlast]
    | pubCheck | pubNext | pubFree | pubStore | pubFill => simp at hdone
  | life ha hc₀ hl =>
    obtain rfl := Option.some.inj (hc.symm.trans hc₀)
    cases hl
  | halt => simp [hc] at hdone
  | _ => simp_all

/-! ### Runs that stay inside -/

/-- What a `pubEvts` finds when it tests the last row of its table, and what a dispatch finds when it tests a row, is
null. -/
def State.findsNull (s : State abi) (x : Thread × Act abi) : Bool :=
  match s.calls x.1, x.1 with
  | some (.pubEvts _ _ (.scan row)), _ =>
    decide (row + 1 ≠ s.manger.mayPubEvtNumMax.toNat) || s.manger.pubTable.all fun tab => (tab.entry row).isNone
  | none, .procer q =>
    match s.procer q with
    | .dispatch _ _ (.row row) => decide (s.manger.maySubEvtNumMax.toNat ≤ row) || (s.subRow row).isNone
    | _ => true
  | _, _ => true

/-- No `pubEvts` has gone past its table, and no dispatch is in a row. -/
structure BeforeEnds (s : State abi) : Prop where
  pub : ∀ t id ids row, s.calls t = some (.pubEvts id ids (.scan row)) → row < s.manger.mayPubEvtNumMax.toNat
  dispatch : ∀ q slot k pc, s.procer q = .dispatch slot k pc → pc = .rdlock ∨ ∃ row, pc = .row row

/-- The publication table has a row. -/
theorem pubMax_pos (h : Reach ok clients s) : 0 < s.manger.mayPubEvtNumMax.toNat := by
  refine h.induction (P := fun s => 0 < s.manger.mayPubEvtNumMax.toNat) (by simp [State.init, Manger.init])
    fun s s' t a _ ih _ _ h => ?_
  cases h with
  | table ha hc htab =>
    rcases htab.cases with hsame | ⟨args, r, -, -, hi⟩ | ⟨-, -, -, rfl⟩
    · exact hsame.mayPubEvtNumMax ▸ ih
    · cases hi with
      | badState | null => exact ih
      | done hs ha hm =>
        rw [Manger.initTables_success s.manger hm]
        exact Manger.limit_pos ih
      | failed hs ha hm hr =>
        obtain ⟨-, -, -, -, -, -, -, -, hpub, -⟩ := Manger.initTables_failure s.manger hm hr
        rcases hpub with hpub | hpub <;> simp only [State.tableStep, hpub]
        exacts [ih, Manger.limit_pos ih]
    · exact ih
  | life ha hc hl => exact hl.tables ▸ ih
  | post | signal => simpa using ih
  | _ => exact ih

/-- The test of a row that is in the table finds it used when the next one is tested. -/
theorem pubEvts_scan {id : EvtOperID abi} {ids : List EvtID} {row row' : ℕ} (hf : s.manger.PubFits ids (.scan row))
    (hlt : row < s.manger.mayPubEvtNumMax.toNat) (h : s.pubEvts t id ids (.scan row) env = some s')
    (hc' : s'.calls t = some (.pubEvts id ids (.scan row'))) :
    row' = row + 1 ∧ ∃ tab, s.manger.pubTable = some tab ∧ tab.entry row ≠ none := by
  obtain ⟨hT, hle⟩ := hf
  obtain ⟨tab, htab, hlen⟩ := Option.map_eq_some_iff.mp hT.pub
  simp only [State.pubEvts, htab, if_neg (Nat.not_lt.mpr hle), hlen, if_neg (Nat.not_le.mpr hlt)] at h
  split at h
  · rename_i hsome
    have hpc := pc_of_setCall (Option.some.inj h ▸ hc')
    exact ⟨(PubPc.scan.inj hpc).symm, tab, htab, Option.isSome_iff_ne_none.mp hsome⟩
  · split at h
    · simp [← Option.some.inj h] at hc'
    · have hpc := pc_of_setCall (Option.some.inj h ▸ hc')
      simp at hpc

theorem beforeEnds_pub (hr : Reach ok clients s) (hB : BeforeEnds s) (hok : s.findsNull (t, a) = true)
    (hn : next s (t, a) = some s') {u : Thread} {id : EvtOperID abi} {ids : List EvtID} {row : ℕ}
    (hc : s'.calls u = some (.pubEvts id ids (.scan row))) : row < s'.manger.mayPubEvtNumMax.toNat := by
  have htr := (next_trans hn).2
  -- the limit stays as it is while a publication is in progress
  have hkeep : ∀ {row}, s.calls u = some (.pubEvts id ids (.scan row)) → row < s'.manger.mayPubEvtNumMax.toNat := by
    intro row hc
    rw [(hasTables_trans htr (pubInv_reach hr u id ids _ hc).1).2.pub]
    exact hB.pub u id ids row hc
  by_cases hu : u = t
  · subst hu
    cases htr with
    | @call api =>
      simp only [State.setCall, Function.update_self, Option.some.injEq] at hc
      cases api <;> simp [Api.toCall] at hc
    | table ha hc₀ htab =>
      obtain ⟨pc₀, rfl⟩ := htab.pub_rest (by simpa using hc)
      obtain ⟨env, -, hstep⟩ := pubEvts_next hc₀ hn
      have hr' : Reach (fun _ _ => True) clients _ := (hr.mono fun _ _ _ => trivial).tail (u, a) trivial hn
      cases pc₀ with
      | scan row₀ =>
        have hfits := pubInv_reach hr u id ids _ hc₀
        have hlt := hB.pub u id ids row₀ hc₀
        obtain ⟨rfl, tab, htab', hused⟩ := pubEvts_scan hfits hlt hstep hc
        simp only [State.findsNull, hc₀, htab', Option.all_some, Bool.or_eq_true, decide_eq_true_eq,
          Option.isNone_iff_eq_none] at hok
        have hne := hok.resolve_right hused
        rw [(hasTables_trans (next_trans hn).2 hfits.1).2.pub]
        omega
      | check =>
        cases htab with
        | pubCheck =>
          simp only [State.tableStep, Function.update_self, Option.some.injEq, Call.pubEvts.injEq,
            PubPc.scan.injEq] at hc
          exact hc.2.2 ▸ pubMax_pos hr'
        | pubNotReged | pubBug => simp at hc
      | store row₀ =>
        cases htab
        simp at hc
      | fill row₀ pRow pc => cases htab <;> simp at hc
    | life ha hc₀ hl => cases hl <;> simp at hc
    | cancelJoin | post | signal => simp at hc
    | _ => exact hkeep hc
  · rw [htr.calls_ne hu] at hc
    exact hkeep hc

theorem beforeEnds_dispatch (hB : BeforeEnds s) (hok : s.findsNull (t, a) = true) (h : Trans s t a s')
    {pc : DispatchPc} (hp : s'.procer q = .dispatch slot k pc) : pc = .rdlock ∨ ∃ row, pc = .row row := by
  by_cases ht : t = .procer q
  · subst ht
    cases h with
    | call | table | cbRead | halt => exact hB.dispatch q slot k pc hp
    | life ha hc hl => exact hB.dispatch q slot k pc (hl.dispatch hp)
    | signal => exact hB.dispatch q slot k pc (dispatch_of_condSignal hp)
    | post => exact hB.dispatch q slot k pc (by simpa using hp)
    | cancelJoin ha ht | wait ht | wake ht | cancelWait ha ht | noTable ht | endDispatch ht | cancelCb ha ht =>
      obtain rfl := Thread.procer.inj ht
      simp [State.endDispatch] at hp
    | take ht | rdlock ht =>
      obtain rfl := Thread.procer.inj ht
      simp only [State.goto, State.setProcer, State.obs, Function.update_self, ProcerPc.dispatch.injEq] at hp
      simp [← hp.2.2]
    | @move p slot' k' pc₀ pc' ht hc hp₀ hm =>
      obtain rfl := Thread.procer.inj ht
      simp only [State.goto, State.setProcer, Function.update_self, ProcerPc.dispatch.injEq] at hp
      obtain ⟨rfl, rfl, rfl⟩ := hp
      rcases hm with ⟨row, rfl, hlt, ⟨-, rfl⟩ | ⟨hr, rfl⟩⟩ | ⟨row, num, r, rfl, -, -, rfl⟩ | ⟨row, num, rfl, -⟩
      · exact .inr ⟨_, rfl⟩
      · simp [State.findsNull, hc, hp₀, Nat.not_le.mpr hlt, hr] at hok
      · exact .inr ⟨_, rfl⟩
      · simpa using hB.dispatch q _ _ _ hp₀
    | compare ht hc hp₀ hl hr hm =>
      obtain rfl := Thread.procer.inj ht
      have hold := hB.dispatch q _ _ _ hp₀
      rcases hm with ⟨rfl, -⟩ | ⟨rfl, -⟩ <;> simp at hold
    | callSuber ht hc hp₀ =>
      obtain rfl := Thread.procer.inj ht
      simpa using hB.dispatch q _ _ _ hp₀
  · exact hB.dispatch q slot k pc (h.dispatch_ne ht hp)

theorem beforeEnds_reach (h : Reach (fun s x => s.findsNull x = true) clients s) : BeforeEnds s := by
  refine Runs.ReachUnder.invariant (P := BeforeEnds) ⟨fun t id ids row hc => ?_, fun q slot k pc hp => ?_⟩
    (fun s s' x hr hB hok hn => ?_) h
  · simp [State.init] at hc
  · simp [State.init] at hp
  · exact ⟨fun u id ids row hc => beforeEnds_pub hr hB hok hn hc,
      fun q slot k pc hp => beforeEnds_dispatch hB hok (next_trans hn).2 hp⟩

/-- All accesses of the step are inside. -/
def State.inside (s : State abi) (x : Thread × Act abi) : Prop := ∀ acc ∈ s.accesses x, acc.inBounds s.manger = true

/-- Before the ends every step is inside. -/
theorem BeforeEnds.inside (hB : BeforeEnds s) (hr : Reach ok clients s) (x : Thread × Act abi) : s.inside x := by
  refine (accesses_iff hr x).mpr ?_
  unfold State.staysInside
  split
  · rename_i c env hc _
    cases c with
    | pubEvts id ids pc =>
      cases pc with
      | scan row => exact decide_eq_true (Nat.ne_of_lt (hB.pub _ id ids row hc))
      | _ => rfl
    | _ => rfl
  · rename_i q env _ _ _
    cases hp : s.procer q with
    | dispatch slot k pc => rcases hB.dispatch q slot k pc hp with rfl | ⟨row, rfl⟩ <;> rfl
    | _ => rfl
  · rfl

theorem not_outOfBounds_reach (h : Reach (fun s x => s.findsNull x = true) clients s) :
    s.halted ≠ some .outOfBounds := by
  refine Runs.ReachUnder.invariant (P := fun s : State abi => s.halted ≠ some .outOfBounds) (by simp [State.init])
    (fun s s' x hr _ hok hn => ?_) h
  obtain ⟨hh, htr⟩ := next_trans hn
  cases htr with
  | halt hh' =>
    cases hh' with
    | @pubBounds id ids row tab hc ht hle hlen =>
      have hlt := (beforeEnds_reach hr).pub _ id ids row hc
      have hlen' := (Manger.len_eq (tables_reach hr)).2.1 tab ht
      omega
    | _ => simp
  | life ha hc hl => cases hl <;> simp [hh]
  | post | signal => simp [hh]
  | _ => simp [State.endDispatch, hh]

/-! ### Steps that come to an access outside -/

/-- A `pubEvts` that has found every row used does nothing more before it tests the row behind the table. -/
theorem pubEvts_stuck (hr : Reach ok clients s) {id : EvtOperID abi} {ids : List EvtID}
    (hc : s.calls t = some (.pubEvts id ids (.scan s.manger.mayPubEvtNumMax.toNat)))
    (hrun : Runs.ReachUnder next State.inside s s') :
    s'.calls t = some (.pubEvts id ids (.scan s'.manger.mayPubEvtNumMax.toNat)) := by
  refine hrun.invariant
    (P := fun s => s.calls t = some (.pubEvts id ids (.scan s.manger.mayPubEvtNumMax.toNat))) hc ?_
  rintro s₁ s₂ ⟨u, b⟩ hr₁ hc₁ hin hn
  have hreach : Reach (fun _ _ => True) clients s₁ :=
    Runs.ReachUnder.trans (hr.mono fun _ _ _ => trivial) (hr₁.mono fun _ _ _ => trivial)
  have hfits := pubInv_reach hreach t id ids _ hc₁
  by_cases hu : u = t
  · -- its own step is outside
    subst hu
    obtain ⟨env, rfl, -⟩ := pubEvts_next hc₁ hn
    have hstay := (accesses_iff hreach (u, .run env)).mp hin
    simp [State.staysInside, hc₁, Manger.callInside] at hstay
  · rw [(next_trans hn).2.calls_ne (Ne.symm hu), (hasTables_trans (next_trans hn).2 hfits.1).2.pub]
    exact hc₁

/-- The dispatch is at row `row`, which has `n` identifiers, and not past them. -/
def DispatchPc.inRow (row n : ℕ) : DispatchPc → Prop
  | .rdlock => False
  | .row i => i = row
  | .cmpClass i num => i = row ∧ num ≤ n
  | .cmpClassmate i num | .call i num | .inCb i num => i = row ∧ num < n

/-- A dispatch outside a callback just runs on. -/
theorem dispatch_run {pc : DispatchPc} (hc : s.calls (.procer q) = none) (hp : s.procer q = .dispatch slot k pc)
    (hcb : (s.procer q).isInCb = false) (h : next s (.procer q, a) = some s') : ∃ env, a = .run env := by
  have hh : ¬ s.halted.isSome = true := by simp [(next_trans h).1]
  unfold next at h
  rw [if_neg hh] at h
  simp only [hc] at h
  cases a with
  | run env => exact ⟨env, rfl⟩
  | call api => simp [State.startCall, State.userCode, hcb] at h
  | cbRead | cbRet | cancel | wake =>
    simp only [State.procerStep, hp] at h
    cases pc <;> simp [hp, ProcerPc.isInCb] at hcb h

/-- A step inside does not take a dispatch past the identifiers of its row. -/
theorem inRow_step (hr : Reach ok clients s) (hin : s.inside (t, a)) (hn : next s (t, a) = some s') {row : ℕ}
    {r : Row abi} {pc : DispatchPc} (hp : s.procer q = .dispatch slot k pc) (hrow : s.subRow row = some r)
    (hlt : row < s.manger.maySubEvtNumMax.toNat) (hpc : pc.inRow row r.evtIDs.length) :
    s'.procer q = .ended ∨ ∃ pc', s'.procer q = .dispatch slot k pc' ∧ pc'.inRow row r.evtIDs.length := by
  by_cases ht : t = .procer q
  · subst ht
    cases (next_trans hn).2 with
    | call | table | cbRead | halt => exact .inr ⟨pc, hp, hpc⟩
    | life ha hc hl => exact .inr ⟨pc, (hl.procer_eq (liveInv_reach hr) hc (by simp [hp])).trans hp, hpc⟩
    | post => exact .inr ⟨pc, by simpa using hp, hpc⟩
    | @signal env id arg p ha hc hl =>
      refine .inr ⟨pc, ?_, hpc⟩
      simp only [State.ret, State.setCall, State.obs, State.condSignal]
      split
      · rename_i hw
        have hne : q ≠ p := fun h => by simp [← h, hp] at hw
        simpa [Function.update_of_ne hne] using hp
      · exact hp
    | cancelJoin ha ht | cancelCb ha ht =>
      obtain rfl := Thread.procer.inj ht
      exact .inl (by simp)
    | wait ht hc hp' | take ht hc hp' | wake ht hc hp' | cancelWait ha ht hc hp' =>
      obtain rfl := Thread.procer.inj ht
      simp [hp] at hp'
    | noTable ht hc hp' | rdlock ht hc hp' =>
      obtain rfl := Thread.procer.inj ht
      rw [hp, ProcerPc.dispatch.injEq] at hp'
      obtain ⟨-, -, rfl⟩ := hp'
      exact hpc.elim
    | endDispatch ht hc hp' hle =>
      obtain rfl := Thread.procer.inj ht
      rw [hp, ProcerPc.dispatch.injEq] at hp'
      obtain ⟨-, -, rfl⟩ := hp'
      obtain rfl := hpc
      omega
    | move ht hc hp' hm =>
      obtain rfl := Thread.procer.inj ht
      rw [hp, ProcerPc.dispatch.injEq] at hp'
      obtain ⟨rfl, rfl, rfl⟩ := hp'
      refine .inr ⟨_, Function.update_self .., ?_⟩
      rcases hm with ⟨i, rfl, -, ⟨hi, -⟩ | ⟨-, rfl⟩⟩ | ⟨i, num, r', rfl, hr', hlen, -⟩ | ⟨i, num, rfl, rfl⟩
      · obtain rfl := hpc
        simp [hrow] at hi
      · exact ⟨hpc, Nat.zero_le _⟩
      · obtain ⟨rfl, hle⟩ := hpc
        obtain rfl := Option.some.inj (hrow.symm.trans hr')
        omega
      · exact ⟨hpc.1, hpc.2⟩
    | compare ht hc hp' hl hr' hm =>
      obtain rfl := Thread.procer.inj ht
      rw [hp, ProcerPc.dispatch.injEq] at hp'
      obtain ⟨rfl, rfl, rfl⟩ := hp'
      refine .inr ⟨_, Function.update_self .., ?_⟩
      have hstay := (accesses_iff hr (.procer q, a)).mp hin
      rcases hm with ⟨rfl, hle, hpc'⟩ | ⟨rfl, hpc'⟩
      · -- the word compared is one of the row
        obtain ⟨rfl, -⟩ := hpc
        obtain rfl := Option.some.inj (hrow.symm.trans hr')
        obtain ⟨env, rfl⟩ := dispatch_run hc hp (by simp [hp, ProcerPc.isInCb]) hn
        have hrow' : s.manger.subRow _ = some r := hrow
        simp only [State.staysInside, hc, Manger.procerInside, hp, Manger.dispatchInside, hrow', Option.all_some,
          decide_eq_true_eq] at hstay
        rcases hpc' with rfl | rfl
        · exact ⟨rfl, by omega⟩
        · exact ⟨rfl, by omega⟩
      · rcases hpc' with rfl | rfl
        · exact ⟨hpc.1, hpc.2⟩
        · exact hpc
    | callSuber ht hc hp' =>
      obtain rfl := Thread.procer.inj ht
      rw [hp, ProcerPc.dispatch.injEq] at hp'
      obtain ⟨rfl, rfl, rfl⟩ := hp'
      exact .inr ⟨_, Function.update_self .., hpc⟩
  · exact .inr ⟨pc, ((next_trans hn).2.procer_ne (liveInv_reach hr) ht (by simp [hp]) (by simp [hp])).trans hp, hpc⟩

/-- A dispatch at a row that exists does not leave it before it has compared the word behind the identifiers, unless it
is cancelled in a callback. -/
theorem dispatch_stuck (hr : Reach ok clients s) {row : ℕ} {r : Row abi} (hp : s.procer q = .dispatch slot k (.row row))
    (hrow : s.subRow row = some r) (hlt : row < s.manger.maySubEvtNumMax.toNat)
    (hrun : Runs.ReachUnder next State.inside s s') :
    s'.procer q = .ended ∨ ∃ pc, s'.procer q = .dispatch slot k pc ∧ pc.inRow row r.evtIDs.length := by
  have hall : s'.procer q = .ended ∨ ∃ pc, s'.procer q = .dispatch slot k pc ∧ pc.inRow row r.evtIDs.length ∧
      s'.subRow row = some r ∧ row < s'.manger.maySubEvtNumMax.toNat := by
    refine hrun.invariant
      (P := fun s => s.procer q = .ended ∨ ∃ pc, s.procer q = .dispatch slot k pc ∧ pc.inRow row r.evtIDs.length ∧
        s.subRow row = some r ∧ row < s.manger.maySubEvtNumMax.toNat) (.inr ⟨_, hp, rfl, hrow, hlt⟩) ?_
    rintro s₁ s₂ ⟨u, b⟩ hr₁ hP hin hn
    have hreach : Reach (fun _ _ => True) clients s₁ :=
      Runs.ReachUnder.trans (hr.mono fun _ _ _ => trivial) (hr₁.mono fun _ _ _ => trivial)
    have hL := liveInv_reach hreach
    rcases hP with he | ⟨pc, hp, hpc, hrow, hlt⟩
    · exact .inl ((next_trans hn).2.ended hL (stateLock_reach hreach) he)
    · rcases inRow_step hreach hin hn hp hrow hlt hpc with he | ⟨pc', hp', hpc'⟩
      · exact .inl he
      · -- a dispatch in a row has the table locked
        have hne : ∀ {pc : DispatchPc}, pc.inRow row r.evtIDs.length → pc ≠ .rdlock := by
          rintro _ hx rfl
          exact hx
        have htab : s₂.manger.subTable = s₁.manger.subTable ∧
            s₂.manger.maySubEvtNumMax = s₁.manger.maySubEvtNumMax := by
          cases next_dispatchMove hL (readerInv_reach hreach) hn q with
          | stays hsame => exact (hsame slot k pc' hp').2 (hne hpc')
          | takes htake =>
            rw [hp', ProcerPc.dispatch.injEq] at htake
            exact absurd htake.2.2 (hne hpc')
          | loops _ _ hm => exact ⟨by rw [hm], by rw [hm]⟩
        refine .inr ⟨pc', hp', hpc', ?_, htab.2 ▸ hlt⟩
        rw [State.subRow, htab.1]
        exact hrow
  rcases hall with he | ⟨pc, hp, hpc, -⟩
  · exact .inl he
  · exact .inr ⟨pc, hp, hpc⟩

/-- **The condition is exact.**  After a step that does not meet it, as long as all accesses are inside, the `pubEvts`
stands before the row behind the table, or the dispatch is in the row that it found until it is cancelled there. -/
theorem comes_to_end (hr : Reach ok clients s) (hok : s.findsNull (t, a) = false) (hn : next s (t, a) = some s') :
    (∃ id ids, ∀ s'', Runs.ReachUnder next State.inside s' s'' →
        s''.calls t = some (.pubEvts id ids (.scan s''.manger.mayPubEvtNumMax.toNat))) ∨
      ∃ q slot k row n, t = .procer q ∧ ∀ s'', Runs.ReachUnder next State.inside s' s'' →
        s''.procer q = .ended ∨ ∃ pc, s''.procer q = .dispatch slot k pc ∧ pc.inRow row n := by
  have hr' : Reach (fun _ _ => True) clients s' := (hr.mono fun _ _ _ => trivial).tail (t, a) trivial hn
  unfold State.findsNull at hok
  split at hok
  · rename_i id ids row hc
    left
    obtain ⟨hT, hle⟩ := pubInv_reach hr t id ids _ hc
    obtain ⟨tab, htab, hlen⟩ := Option.map_eq_some_iff.mp hT.pub
    simp only [htab, Option.all_some, Bool.or_eq_false_iff, decide_eq_false_iff_not, not_not] at hok
    obtain ⟨hlast, hused⟩ := hok
    obtain ⟨env, -, hstep⟩ := pubEvts_next hc hn
    have hnot : ¬ s.manger.mayPubEvtNumMax.toNat ≤ row := by omega
    have hsome : (tab.entry row).isSome = true := by
      cases he : tab.entry row with
      | none => simp [he] at hused
      | some x => rfl
    simp only [State.pubEvts, htab, if_neg (Nat.not_lt.mpr hle), hlen, if_neg hnot, if_pos hsome,
      Option.some.injEq] at hstep
    refine ⟨id, ids, fun s'' hrun => pubEvts_stuck hr' ?_ hrun⟩
    simp [← hstep, hlast]
  · rename_i q hc ht
    obtain rfl : t = .procer q := ht
    have hc : s.calls (.procer q) = none := hc
    right
    split at hok
    · rename_i slot k row hp
      simp only [Bool.or_eq_false_iff, decide_eq_false_iff_not, Nat.not_le] at hok
      obtain ⟨hlt, hsome⟩ := hok
      obtain ⟨r, hrow⟩ : ∃ r, s.subRow row = some r := by
        cases hx : s.subRow row with
        | none => simp [hx] at hsome
        | some r => exact ⟨r, rfl⟩
      have hin : s.inside (.procer q, a) := by
        refine (accesses_iff hr _).mpr ?_
        cases a <;> simp [State.staysInside, hc, hp, Manger.procerInside, Manger.dispatchInside]
      exact ⟨q, slot, k, row, r.evtIDs.length, rfl, fun s'' hrun =>
        dispatch_stuck hr hp hrow hlt ((Runs.ReachUnder.refl.tail (.procer q, a) hin hn).trans hrun)⟩
    · simp at hok
  · simp at hok

/-- **When the accesses stay in bounds.**  In every run in which a `pubEvts` that tests the last row finds it null, and a
dispatch finds no row, all accesses of all steps are inside their arrays.  A `pubEvts` that finds the last row used, or a
dispatch that finds a row, does not get further than to the access behind (unless it is cancelled in a callback of the
row).  And in no run does a `pubEvts` report a full table: the test of the row behind the table ends the process. -/
theorem accesses_in_bounds :
    (∀ {clients : ℕ} {s : State abi}, Reach (fun s x => s.findsNull x = true) clients s →
      s.halted ≠ some .outOfBounds ∧ ∀ x, ∀ acc ∈ s.accesses x, acc.inBounds s.manger = true) ∧
    (∀ {ok : State abi → Thread × Act abi → Prop} {clients : ℕ} {s s' : State abi} {t : Thread} {a : Act abi},
      Reach ok clients s → s.findsNull (t, a) = false → next s (t, a) = some s' →
      (∃ id ids, ∀ s'', Runs.ReachUnder next State.inside s' s'' →
          s''.calls t = some (.pubEvts id ids (.scan s''.manger.mayPubEvtNumMax.toNat))) ∨
        ∃ q slot k row n, t = .procer q ∧ ∀ s'', Runs.ReachUnder next State.inside s' s'' →
          s''.procer q = .ended ∨ ∃ pc, s''.procer q = .dispatch slot k pc ∧ pc.inRow row n) ∧
    ∀ {ok : State abi → Thread × Act abi → Prop} {clients : ℕ} {s s' : State abi} {t : Thread} {a : Act abi}
      {id : EvtOperID abi} {ids : List EvtID} {pc : PubPc}, Reach ok clients s → next s (t, a) = some s' →
      s.calls t = some (.pubEvts id ids pc) →
      (pc = .scan s.manger.mayPubEvtNumMax.toNat → s'.halted = some .outOfBounds) ∧
        ∀ r, Returns s s' t (.pubEvts id ids pc) r → r ≠ some .tooManyPubedEvents := by
  refine ⟨fun h => ⟨not_outOfBounds_reach h, fun x => (beforeEnds_reach h).inside h x⟩,
    fun hr hok hn => comes_to_end hr hok hn, ?_⟩
  intro ok clients s s' t a id ids pc h hn hc
  refine ⟨fun hpc => ?_, fun r hret => pubEvts_result h hn hret⟩
  subst hpc
  exact pubEvts_behind h hn hc

/-- A client initializes the manager with room for `rows` publications and registers. -/
def startedPub (rows : BitVec 16) : List (Thread × Act lp64) :=
  [(.client 0, .call (.initEvtManger (some ⟨0, rows, 0, 0⟩))), (.client 0, .go),
    (.client 0, .call (.regOper ⟨0⟩)), (.client 0, .go), (.client 0, .go)]

/-- It publishes one event, to the return of the call. -/
def publishedOne : List (Thread × Act lp64) :=
  (.client 0, .call (.pubEvts 0 [evtIDTestKeepAlive])) :: List.replicate 7 (.client 0, .go)

/-- With room for one publication, the second `pubEvts` tests the row behind the table; and the dispatch of an event
compares the word behind the one identifier of a subscription. -/
theorem accesses_behind :
    (∃ s s' : State lp64, Reach (fun _ _ => True) 1 s ∧ .pubTable 1 ∈ s.accesses (.client 0, .go) ∧
      Access.inBounds s.manger (.pubTable 1) = false ∧ next s (.client 0, .go) = some s' ∧
      s'.halted = some .outOfBounds) ∧
    ∃ s : State lp64, Reach (fun _ _ => True) 1 s ∧ .evtIDs 1 1 ∈ s.accesses (.procer 0, .go) := by
  obtain ⟨s, hr, hs⟩ := reach_of_run (fun _ _ => True) 1
    (startedPub 1 ++ publishedOne ++ [(.client 0, .call (.pubEvts 0 [])), (.client 0, .go), (.client 0, .go)])
    (fun s : State lp64 => decide (.pubTable 1 ∈ s.accesses (.client 0, .go)) &&
      !Access.inBounds s.manger (.pubTable 1) &&
      (next s (.client 0, .go)).any fun s' : State lp64 => decide (s'.halted = some .outOfBounds)) (by decide +kernel)
  obtain ⟨u, hu, hus⟩ := reach_of_run (fun _ _ => True) 1 (takenWith [evtIDTestKeepAlive] ++ calledOnce)
    (fun s : State lp64 => decide (.evtIDs 1 1 ∈ s.accesses (.procer 0, .go))) (by decide +kernel)
  simp only [Bool.and_eq_true, decide_eq_true_eq, Bool.not_eq_true', Option.any_eq_true] at hs hus
  obtain ⟨⟨hmem, hout⟩, s', hn, hhalt⟩ := hs
  exact ⟨⟨s, s', hr, hmem, hout, hn, hhalt⟩, u, hu, hus⟩

/-- With room for two publications, the second `pubEvts` finds the last row null; and a dispatch goes through a table
without rows. -/
theorem accesses_in_bounds_two :
    (∃ s : State lp64, .pubTable 1 ∈ s.accesses (.client 0, .go) ∧ Access.inBounds s.manger (.pubTable 1) = true) ∧
      ∃ s : State lp64, s.dispatched 0 = [0] ∧ s.halted ≠ some .outOfBounds := by
  obtain ⟨s, hr, hs⟩ := reach_of_run (fun (s : State lp64) x => s.findsNull x = true) 1
    (startedPub 2 ++ publishedOne ++ [(.client 0, .call (.pubEvts 0 [])), (.client 0, .go), (.client 0, .go)])
    (fun s : State lp64 => decide (.pubTable 1 ∈ s.accesses (.client 0, .go))) (by decide +kernel)
  obtain ⟨u, hu, hus⟩ := reach_of_run (fun (s : State lp64) x => s.findsNull x = true) 1
    (startedPub 2 ++ enabling (.client 0) ++ postOf (defineEvtDesc lp64 evtIDTestKeepAlive) ++
      List.replicate 19 (.procer 0, .go)) (fun s : State lp64 => decide (s.dispatched 0 = [0])) (by decide +kernel)
  have hmem := of_decide_eq_true hs
  exact ⟨⟨s, hmem, (accesses_in_bounds.1 hr).2 _ _ hmem⟩, u, of_decide_eq_true hus, (accesses_in_bounds.1 hu).1⟩

end PlatIF.Evt
