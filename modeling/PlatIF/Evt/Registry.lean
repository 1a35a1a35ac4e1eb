import PlatIF.Evt.Rep
import PlatIF.Lib.IdPool
import Mathlib.Data.Finset.Image

/-!
# The operator registry

The registry hands out the index of a free entry of its table as the id of the operator.  The ids that are out are
followed along the run, from what `regOper` returned and `unregOper` was given.

* `Table.Registers` — the table stands for the ids that are out;
* `Manger.doRegOper_step`, `Manger.unregOper_step` — the two sections are steps of an id pool;
* `RegRun` — a run with the ids that are out;
* `registry_allocates` — what holds in every run.
-/

namespace PlatIF.Evt

variable {abi : Abi} {s s' : State abi} {t : Thread} {a : Act abi} {env : Env} {clients : ℕ}

/-! ### Table and ids -/

/-- The ids below `_mMayRegOperNumMax`. -/
def operIDs (abi : Abi) (max : BitVec 16) : Finset (EvtOperID abi) :=
  (Finset.range max.toNat).image (BitVec.ofNat abi.ulongBits)

/-- An index of the registry fits into an id. -/
theorem toNat_operID {max : BitVec 16} {i : ℕ} (h : i < max.toNat) : (BitVec.ofNat abi.ulongBits i).toNat = i := by
  have hmax := max.isLt
  have hpow := abi.pow_le
  rw [BitVec.toNat_ofNat]
  exact Nat.mod_eq_of_lt (by omega)

theorem ofNat_toNat_operID (id : EvtOperID abi) : BitVec.ofNat abi.ulongBits id.toNat = id :=
  BitVec.eq_of_toNat_eq (by rw [BitVec.toNat_ofNat, Nat.mod_eq_of_lt id.isLt])

theorem mem_operIDs {max : BitVec 16} {id : EvtOperID abi} : id ∈ operIDs abi max ↔ id.toNat < max.toNat := by
  simp only [operIDs, Finset.mem_image, Finset.mem_range]
  constructor
  · rintro ⟨i, hi, rfl⟩
    rwa [toNat_operID hi]
  · exact fun h => ⟨id.toNat, h, ofNat_toNat_operID id⟩

theorem forall_mem_iff {max : BitVec 16} {live : Finset (EvtOperID abi)} :
    (∀ i, i < max.toNat → BitVec.ofNat _ i ∈ live) ↔ operIDs abi max ⊆ live := by
  rw [operIDs, Finset.image_subset_iff]
  exact forall_congr' fun i => by rw [Finset.mem_range]

/-- The table stands for the ids that are out: their entries, and no other, hold an operator, and each the one with the
index of the entry as its id. -/
structure Table.Registers (tab : Table (EvtOperObj abi)) (max : BitVec 16) (live : Finset (EvtOperID abi)) : Prop where
  slot : ∀ id, id ∈ live ↔ id.toNat < max.toNat ∧ tab.entry id.toNat ≠ none
  own : ∀ i o, i < max.toNat → tab.entry i = some o → o.evtOperID = BitVec.ofNat _ i

namespace Table

variable {tab : Table (EvtOperObj abi)} {max : BitVec 16} {live : Finset (EvtOperID abi)}

theorem Registers.calloc (max : BitVec 16) : (Table.calloc max.toNat : Table (EvtOperObj abi)).Registers max ∅ where
  slot id := by simp [Table.calloc]
  own i o hi h := by simp [Table.calloc] at h

theorem firstFree_eq_some {α : Type*} {tab : Table α} {max i : ℕ} (h : tab.firstFree max = some i) :
    i < max ∧ tab.entry i = none :=
  ⟨List.mem_range.mp (List.mem_of_find?_eq_some h), by simpa using List.find?_some h⟩

theorem firstFree_eq_none {α : Type*} {tab : Table α} {max : ℕ} (h : tab.firstFree max = none) {i : ℕ} (hi : i < max) :
    tab.entry i ≠ none := by
  simpa using List.find?_eq_none.mp h i (List.mem_range.mpr hi)

theorem first_eq_some {α : Type*} {tab : Table α} {max i : ℕ} {p : α → Bool} (h : tab.first max p = some i) :
    i < max ∧ ∃ x, tab.entry i = some x ∧ p x = true := by
  unfold Table.first at h
  have hany := List.find?_some h
  exact ⟨List.mem_range.mp (List.mem_of_find?_eq_some h), (Option.any_eq_true _ _).mp hany⟩

theorem first_eq_none {α : Type*} {tab : Table α} {max : ℕ} {p : α → Bool} (h : tab.first max p = none) {i : ℕ} {x : α}
    (hi : i < max) (hx : tab.entry i = some x) : p x = false := by
  have hno := List.find?_eq_none.mp h i (List.mem_range.mpr hi)
  simpa [hx] using hno

/-- The id of a free entry is not out. -/
theorem Registers.free (h : tab.Registers max live) {i : ℕ} (hi : i < max.toNat) (hnone : tab.entry i = none) :
    BitVec.ofNat _ i ∈ operIDs abi max ∧ BitVec.ofNat _ i ∉ live := by
  refine ⟨by rw [mem_operIDs, toNat_operID hi]; exact hi, fun hlive => ?_⟩
  have hne := ((h.slot _).mp hlive).2
  rw [toNat_operID hi] at hne
  exact hne hnone

theorem Registers.full (h : tab.Registers max live) (hfull : tab.firstFree max.toNat = none) :
    operIDs abi max ⊆ live := by
  intro id hid
  have hlt := mem_operIDs.mp hid
  exact (h.slot id).mpr ⟨hlt, firstFree_eq_none hfull hlt⟩

/-- An operator is entered. -/
theorem Registers.insert (h : tab.Registers max live) {i : ℕ} (hi : i < max.toNat) (args : EvtOperArgs) :
    (tab.set i (some ⟨BitVec.ofNat _ i, args⟩)).Registers max (Insert.insert (BitVec.ofNat _ i) live) where
  slot id := by
    rw [Finset.mem_insert]
    by_cases hid : id.toNat = i
    · subst hid
      simpa [Table.set, ofNat_toNat_operID] using hi
    · have hne : id ≠ BitVec.ofNat _ i := fun heq => hid (by rw [heq, toNat_operID hi])
      simpa [Table.set, Function.update_of_ne hid, hne] using h.slot id
  own j o hj ho := by
    by_cases hij : j = i
    · subst hij
      simp only [Table.set, Function.update_self, Option.some.injEq] at ho
      rw [← ho]
    · exact h.own j o hj (by simpa [Table.set, Function.update_of_ne hij] using ho)

/-- The entry of an operator is cleared. -/
theorem Registers.erase (h : tab.Registers max live) {i : ℕ} (hi : i < max.toNat) :
    (tab.set i none).Registers max (live.erase (BitVec.ofNat _ i)) where
  slot id := by
    rw [Finset.mem_erase]
    by_cases hid : id.toNat = i
    · subst hid
      simp [Table.set]
    · have hne : id ≠ BitVec.ofNat _ i := fun heq => hid (by rw [heq, toNat_operID hi])
      simpa [Table.set, Function.update_of_ne hid, hne] using h.slot id
  own j o hj ho := by
    by_cases hij : j = i
    · subst hij
      simp [Table.set] at ho
    · exact h.own j o hj (by simpa [Table.set, Function.update_of_ne hij] using ho)

/-- The operator that the loop of `unregOper` finds is the one of the id. -/
theorem Registers.first (h : tab.Registers max live) (id : EvtOperID abi) :
    (tab.first max.toNat fun o => o.evtOperID == id) = if id ∈ live then some id.toNat else none := by
  cases hf : tab.first max.toNat fun o => o.evtOperID == id with
  | some i =>
    obtain ⟨hi, o, ho, hid⟩ := first_eq_some hf
    have heq : id = BitVec.ofNat _ i := (beq_iff_eq.mp hid).symm.trans (h.own i o hi ho)
    have hi' : id.toNat = i := by rw [heq, toNat_operID hi]
    have hlive : id ∈ live := (h.slot id).mpr ⟨by omega, by rw [hi', ho]; simp⟩
    rw [if_pos hlive, hi']
  | none =>
    refine (if_neg fun hlive => ?_).symm
    obtain ⟨hlt, hne⟩ := (h.slot id).mp hlive
    obtain ⟨o, ho⟩ := Option.ne_none_iff_exists'.mp hne
    have hno := first_eq_none hf hlt ho
    rw [h.own _ o hlt ho, ofNat_toNat_operID] at hno
    simp at hno

end Table

/-! ### The sections -/

/-- What a `regOper` did to the pool. -/
def regOp (out : TosResult × Option (EvtOperID abi) × Manger abi) : IdPool.Op (EvtOperID abi) :=
  match out.1, out.2.1 with
  | .success, some id => .alloc id
  | .tooManyReged, _ => .full
  | _, _ => .refused

/-- The ids that are out after a `regOper`: the id that it returned is. -/
def regOut (live : Finset (EvtOperID abi)) (id : Option (EvtOperID abi)) : Finset (EvtOperID abi) :=
  id.elim live fun id => insert id live

namespace Manger

variable {m : Manger abi} {tab : Table (EvtOperObj abi)} {live : Finset (EvtOperID abi)}

/-- What `__PLT_EVT_doRegOper` does, for a registry that is there. -/
theorem doRegOper_cases (htab : m.regedOperObjs = some tab) (args : EvtOperArgs) (env : Env) :
    (tab.firstFree m.mayRegOperNumMax.toNat = none ∧ m.doRegOper args env = (.tooManyReged, none, m)) ∨
      ∃ i, tab.firstFree m.mayRegOperNumMax.toNat = some i ∧
        (env.alloc 0 = false ∧ m.doRegOper args env = (.notEnoughMemory, none, m) ∨
          env.alloc 0 = true ∧ m.doRegOper args env = (.success, some (BitVec.ofNat _ i),
            { m with regedOperObjs := some (tab.set i (some ⟨BitVec.ofNat _ i, args⟩)) })) := by
  unfold doRegOper
  simp only [htab]
  cases hf : tab.firstFree m.mayRegOperNumMax.toNat with
  | none => exact .inl ⟨rfl, rfl⟩
  | some i =>
    refine .inr ⟨i, rfl, ?_⟩
    cases halloc : env.alloc 0 with
    | false => exact .inl ⟨rfl, if_pos rfl⟩
    | true => exact .inr ⟨rfl, if_neg (by simp)⟩

/-- **The section of `regOper` is a step of the pool.** -/
theorem doRegOper_step (h : tab.Registers m.mayRegOperNumMax live) (htab : m.regedOperObjs = some tab)
    (args : EvtOperArgs) (env : Env) :
    IdPool.Step (operIDs abi m.mayRegOperNumMax) live (regOp (m.doRegOper args env))
        (regOut live (m.doRegOper args env).2.1) ∧
      ∃ tab', (m.doRegOper args env).2.2 = { m with regedOperObjs := some tab' } ∧
        tab'.Registers m.mayRegOperNumMax (regOut live (m.doRegOper args env).2.1) := by
  have hsame : m = { m with regedOperObjs := some tab } := by rw [← htab]
  rcases doRegOper_cases htab args env with ⟨hfull, hout⟩ | ⟨i, hfree, ⟨-, hout⟩ | ⟨-, hout⟩⟩
  · rw [hout]
    exact ⟨.full (h.full hfull), tab, hsame, h⟩
  · obtain ⟨hi, hnone⟩ := Table.firstFree_eq_some hfree
    obtain ⟨hstock, hnot⟩ := h.free hi hnone
    rw [hout]
    exact ⟨.refused fun hsub => hnot (hsub hstock), tab, hsame, h⟩
  · obtain ⟨hi, hnone⟩ := Table.firstFree_eq_some hfree
    obtain ⟨hstock, hnot⟩ := h.free hi hnone
    rw [hout]
    exact ⟨.alloc hstock hnot, _, rfl, h.insert hi args⟩

/-- **So is that of `unregOper`.** -/
theorem unregOper_step (h : tab.Registers m.mayRegOperNumMax live) (htab : m.regedOperObjs = some tab)
    (id : EvtOperID abi) :
    ∃ tab', m.unregOper id = { m with regedOperObjs := some tab' } ∧
      tab'.Registers m.mayRegOperNumMax (live.erase id) ∧
      ∀ i, tab'.entry i ≠ tab.entry i → i = id.toNat ∧ tab'.entry i = none := by
  have hsame : m = { m with regedOperObjs := some tab } := by rw [← htab]
  unfold unregOper
  simp only [htab, h.first id]
  by_cases hlive : id ∈ live
  · have hlt := ((h.slot id).mp hlive).1
    have herase := h.erase hlt
    rw [ofNat_toNat_operID] at herase
    refine ⟨tab.set id.toNat none, by simp [hlive], herase, fun i hne => ?_⟩
    by_cases hi : i = id.toNat
    · exact ⟨hi, by simp [Table.set, hi]⟩
    · exact absurd (Function.update_of_ne hi _ _) hne
  · refine ⟨tab, by simpa [hlive] using hsame, ?_, fun i hne => absurd rfl hne⟩
    rwa [Finset.erase_eq_of_notMem hlive]

/-- The check of the registration answers for every id. -/
theorem isRegedOperID_iff (h : tab.Registers m.mayRegOperNumMax live) (htab : m.regedOperObjs = some tab)
    (id : EvtOperID abi) : m.isRegedOperID id = tosYes ↔ id ∈ live := by
  rw [h.slot]
  unfold isRegedOperID
  simp only [htab]
  by_cases hlt : id.toNat < m.mayRegOperNumMax.toNat
  · rw [if_neg (Nat.not_le.mpr hlt)]
    cases ho : tab.entry id.toNat with
    | none => simp
    | some o =>
      have hown := h.own _ o hlt ho
      rw [ofNat_toNat_operID] at hown
      simp [hown, hlt]
  · rw [if_pos (Nat.not_lt.mp hlt)]
    simp [hlt]

end Manger

/-! ### Runs with the ids that are out -/

/-- The ids that are out after a step: the section of a `regOper` adds the id it returned, and that of an `unregOper`
removes the id it was given. -/
def State.liveAfter (s : State abi) (x : Thread × Act abi) (live : Finset (EvtOperID abi)) :
    Finset (EvtOperID abi) :=
  match s.calls x.1, x.2 with
  | some (.regOper args true), .run env => regOut live (s.manger.doRegOper args env).2.1
  | some (.unregOper id), .run _ => live.erase id
  | _, _ => live

/-- A state with the ids that are out. -/
structure RegRun (abi : Abi) where
  state : State abi
  live : Finset (EvtOperID abi)

/-- A step of the system, followed. -/
def RegRun.next (x : RegRun abi) (y : Thread × Act abi) : Option (RegRun abi) :=
  (Evt.next x.state y).map fun s' => ⟨s', x.state.liveAfter y x.live⟩

/-- Every run of the system, followed from the state in which no id is out. -/
def RegRun.Reach (clients : ℕ) (x : RegRun abi) : Prop :=
  Runs.ReachUnder RegRun.next (fun _ _ => True) ⟨State.init clients, ∅⟩ x

theorem RegRun.next_eq_some {x x' : RegRun abi} {y : Thread × Act abi} (h : x.next y = some x') :
    Evt.next x.state y = some x'.state ∧ x'.live = x.state.liveAfter y x.live := by
  obtain ⟨s', hs, rfl⟩ := Option.map_eq_some_iff.mp h
  exact ⟨hs, rfl⟩

/-- Without tables no id is out, and with them the registry stands for the ids that are out. -/
def RegInv (m : Manger abi) (live : Finset (EvtOperID abi)) : Prop :=
  m.NoTables ∧ live = ∅ ∨
    m.HasTables ∧ ∃ tab, m.regedOperObjs = some tab ∧ tab.Registers m.mayRegOperNumMax live

/-- A step that is not the section of a `regOper` or `unregOper` leaves the ids alone. -/
theorem liveAfter_of_idle (live : Finset (EvtOperID abi)) (hreg : ∀ args, s.calls t ≠ some (.regOper args true))
    (hunreg : ∀ id, s.calls t ≠ some (.unregOper id)) : s.liveAfter (t, a) live = live := by
  unfold State.liveAfter
  split
  · rename_i args env hc ha
    exact absurd hc (hreg args)
  · rename_i id env hc ha
    exact absurd hc (hunreg id)
  · rfl

/-- What the steps on the tables do to the registry. -/
theorem TableStep.registry {c : Call abi} {m : Manger abi} {n : ℕ} {c' : Option (Call abi)} {os : List (Obs abi)}
    (h : TableStep s t env c m n c' os) :
    (∃ args, c = .initEvtManger args ∧ m = (s.manger.initEvtManger args env).2) ∨
      (∃ args, c = .regOper args true ∧ m = (s.manger.doRegOper args env).2.2) ∨
      (∃ id, c = .unregOper id ∧ m = s.manger.unregOper id) ∨
      (∀ args, c ≠ .regOper args true) ∧ (∀ id, c ≠ .unregOper id) ∧ m.regedOperObjs = s.manger.regedOperObjs ∧
        m.mayRegOperNumMax = s.manger.mayRegOperNumMax := by
  cases h with
  | init hw => exact .inl ⟨_, rfl, rfl⟩
  | reg hm => exact .inr (.inl ⟨_, rfl, by rw [hm]⟩)
  | unreg => exact .inr (.inr (.inl ⟨_, rfl, rfl⟩))
  | sub => exact .inr (.inr (.inr ⟨by simp, by simp, by rw [Manger.doSubEvts_only], by rw [Manger.doSubEvts_only]⟩))
  | unsub => exact .inr (.inr (.inr ⟨by simp, by simp, by rw [Manger.unsubEvts_only], by rw [Manger.unsubEvts_only]⟩))
  | unpub => exact .inr (.inr (.inr ⟨by simp, by simp, by rw [Manger.unpubEvts_only], by rw [Manger.unpubEvts_only]⟩))
  | pubStore =>
    exact .inr (.inr (.inr ⟨by simp, by simp, by rw [Manger.storePubRow_only], by rw [Manger.storePubRow_only]⟩))
  | pubFill | pubDone =>
    exact .inr (.inr (.inr ⟨by simp, by simp, by rw [Manger.fillPubRow_only], by rw [Manger.fillPubRow_only]⟩))
  | _ => exact .inr (.inr (.inr ⟨by simp, by simp, rfl, rfl⟩))

/-- What a step does to the registry. -/
inductive RegStep (s s' : State abi) (t : Thread) (a : Act abi) : Prop
  | init {args : Option EvtMangerModArgs} {env : Env} (hc : s.calls t = some (.initEvtManger args))
      (hm : s'.manger = (s.manger.initEvtManger args env).2)
  | reg {args : EvtOperArgs} {env : Env} (ha : a = .run env) (hc : s.calls t = some (.regOper args true))
      (hm : s'.manger = (s.manger.doRegOper args env).2.2)
  | unreg {id : EvtOperID abi} {env : Env} (ha : a = .run env) (hc : s.calls t = some (.unregOper id))
      (hm : s'.manger = s.manger.unregOper id)
  | idle (hreg : ∀ args, s.calls t ≠ some (.regOper args true)) (hunreg : ∀ id, s.calls t ≠ some (.unregOper id))
      (hm : s'.manger.regedOperObjs = s.manger.regedOperObjs)
      (hn : s'.manger.mayRegOperNumMax = s.manger.mayRegOperNumMax)

/-- A thread that ends the process is in neither section. -/
theorem HaltStep.calls {x : Halt} (h : HaltStep s t x) :
    (∀ args, s.calls t ≠ some (.regOper args true)) ∧ ∀ id, s.calls t ≠ some (.unregOper id) := by
  cases h with
  | pubNull hc | pubBounds hc | pubFreed hc | postTable hc | postNull hc | postFreed hc | postEarly hc | postArg hc
  | postSignalFreed hc | postSignalEarly hc | procerFreed ht hc | procerNull ht hc => simp [hc]

theorem Trans.regStep (h : Trans s t a s') : RegStep s s' t a := by
  cases h with
  | table ha hc htab =>
    rcases htab.registry with ⟨args, rfl, hm⟩ | ⟨args, rfl, hm⟩ | ⟨id, rfl, hm⟩ | ⟨hreg, hunreg, hm, hn⟩
    · exact .init hc hm
    · exact .reg ha hc hm
    · exact .unreg ha hc hm
    · exact .idle (fun args h => hreg args (Option.some.inj (hc.symm.trans h)))
        (fun id h => hunreg id (Option.some.inj (hc.symm.trans h))) hm hn
  | halt hh => exact .idle hh.calls.1 hh.calls.2 rfl rfl
  | life ha hc hl =>
    refine .idle (fun args h => ?_) (fun id h => ?_) (by rw [hl.tables]) (by rw [hl.tables])
    all_goals
      obtain rfl := Option.some.inj (hc.symm.trans h)
      cases hl
  | call ha hc | cancelJoin ha ht hc | post ha hc | signal ha hc | wait ht hc | take ht hc | wake ht hc | cancelWait ha ht hc | noTable ht hc | rdlock ht hc | endDispatch ht hc
  | move ht hc | compare ht hc | callSuber ht hc | cbRead ht hc | cancelCb ha ht hc =>
    exact .idle (by simp [hc]) (by simp [hc]) (by simp [State.endDispatch]) (by simp [State.endDispatch])

theorem regInv_init {live : Finset (EvtOperID abi)} {m m' : Manger abi} {args : Option EvtMangerModArgs}
    {r : TosResult} (hI : RegInv m live) (h : Manger.InitStep m args env r m') : RegInv m' live := by
  rcases hI with ⟨hN, hlive⟩ | ⟨hT, htab⟩
  · cases h with
    | badState => exact .inl ⟨hN, hlive⟩
    | null => exact .inl ⟨⟨hN.reg, hN.pub, hN.sub, hN.queue⟩, hlive⟩
    | done hs ha hm =>
      rename_i m'
      rw [Manger.initTables_success m hm]
      exact .inr ⟨⟨by simp, rfl, rfl, rfl, by simp⟩, _, rfl, hlive ▸ .calloc _⟩
    | failed hs ha hm hr =>
      obtain ⟨-, -, h1, h2, h3, h4, -⟩ := Manger.initTables_failure m hm hr
      exact .inl ⟨⟨h1, h2, h3, h4⟩, hlive⟩
  · rw [hT.initStep h]
    exact .inr ⟨hT, htab⟩

theorem regInv_trans {live : Finset (EvtOperID abi)} (hI : RegInv s.manger live) (h : Trans s t a s') :
    RegInv s'.manger (s.liveAfter (t, a) live) := by
  cases h.regStep with
  | @init args env hc hm =>
    rw [liveAfter_of_idle live (by simp [hc]) (by simp [hc]), hm]
    exact regInv_init hI (Manger.initEvtManger_step _ _ _)
  | @reg args env ha hc hm =>
    have hlive : s.liveAfter (t, a) live = regOut live (s.manger.doRegOper args env).2.1 := by
      simp [State.liveAfter, hc, ha]
    rw [hlive, hm]
    rcases hI with ⟨hN, hnone⟩ | ⟨hT, tab, htab, hR⟩
    · have hout : s.manger.doRegOper args env = (.bug, none, s.manger) := by simp [Manger.doRegOper, hN.reg]
      rw [hout]
      exact .inl ⟨hN, hnone⟩
    · obtain ⟨-, tab', hm', hR'⟩ := Manger.doRegOper_step hR htab args env
      have hT' := hT.sameShape (s.manger.doRegOper_shape args env)
      rw [hm'] at hT' ⊢
      exact .inr ⟨hT', tab', rfl, hR'⟩
  | @unreg id env ha hc hm =>
    have hlive : s.liveAfter (t, a) live = live.erase id := by simp [State.liveAfter, hc, ha]
    rw [hlive, hm]
    rcases hI with ⟨hN, hnone⟩ | ⟨hT, tab, htab, hR⟩
    · have hout : s.manger.unregOper id = s.manger := by simp [Manger.unregOper, hN.reg]
      rw [hout]
      exact .inl ⟨hN, by simp [hnone]⟩
    · obtain ⟨tab', hm', hR', -⟩ := Manger.unregOper_step hR htab id
      have hT' := hT.sameShape (s.manger.unregOper_shape id)
      rw [hm'] at hT' ⊢
      exact .inr ⟨hT', tab', rfl, hR'⟩
  | idle hreg hunreg hm hn =>
    rw [liveAfter_of_idle live hreg hunreg]
    rcases hI with ⟨hN, hnone⟩ | ⟨hT, tab, htab, hR⟩
    · refine .inl ⟨(noTables_trans h hN).resolve_right fun hT => ?_, hnone⟩
      have hlen := hT.reg
      simp [hm, hN.reg] at hlen
    · exact .inr ⟨(hasTables_trans h hT).1, tab, hm.trans htab, by rw [hn]; exact hR⟩

theorem regRun_reach {x : RegRun abi} (h : x.Reach clients) :
    Reach (fun _ _ => True) clients x.state ∧ RegInv x.state.manger x.live := by
  refine Runs.ReachUnder.invariant
    (P := fun x : RegRun abi => Reach (fun _ _ => True) clients x.state ∧ RegInv x.state.manger x.live) ?_ ?_ h
  · exact ⟨.refl, .inl ⟨.init, rfl⟩⟩
  · intro x x' y _ hP _ hn
    obtain ⟨hs, hlive⟩ := RegRun.next_eq_some hn
    rw [hlive]
    exact ⟨hP.1.tail y trivial hs, regInv_trans hP.2 (next_trans hs).2⟩

/-- The section of a `regOper`. -/
theorem regOper_next {args : EvtOperArgs} (hc : s.calls t = some (.regOper args true))
    (hn : next s (t, .run env) = some s') :
    s'.manger = (s.manger.doRegOper args env).2.2 ∧ s'.calls t = none ∧
      s'.log = s.log ++ (((s.manger.doRegOper args env).2.1.map Obs.reged).toList ++
        [.ret t (some (s.manger.doRegOper args env).1)]) := by
  cases (next_trans hn).2 with
  | table ha hc₀ htab =>
    obtain rfl := Act.run.inj ha
    rw [hc, Option.some.injEq] at hc₀
    subst hc₀
    cases htab with
    | reg hm => exact ⟨by rw [hm]; rfl, by simp, by rw [hm]; rfl⟩
  | life ha hc₀ hl =>
    obtain rfl := Option.some.inj (hc.symm.trans hc₀)
    cases hl
  | halt hh => exact absurd hc (hh.calls.1 args)
  | _ => simp_all

/-- The section of an `unregOper`. -/
theorem unregOper_next {id : EvtOperID abi} (hc : s.calls t = some (.unregOper id))
    (hn : next s (t, .run env) = some s') : s'.manger = s.manger.unregOper id := by
  cases (next_trans hn).2 with
  | table ha hc₀ htab =>
    rw [hc, Option.some.injEq] at hc₀
    subst hc₀
    cases htab with
    | unreg => rfl
  | life ha hc₀ hl =>
    obtain rfl := Option.some.inj (hc.symm.trans hc₀)
    cases hl
  | halt hh => exact absurd hc (hh.calls.2 id)
  | _ => simp_all

/-- A `regOper` before its check of the state changes nothing. -/
theorem regOper_check {args : EvtOperArgs} (hc : s.calls t = some (.regOper args false))
    (hn : next s (t, a) = some s') : s'.manger = s.manger := by
  cases (next_trans hn).2 with
  | table ha hc₀ htab =>
    rw [hc, Option.some.injEq] at hc₀
    subst hc₀
    cases htab <;> rfl
  | life ha hc₀ hl =>
    obtain rfl := Option.some.inj (hc.symm.trans hc₀)
    cases hl
  | halt hh => rfl
  | _ => simp_all

/-- **The registry is a correct allocator of ids**, in every run, from the initialization that made it on. -/
theorem registry_allocates {x : RegRun abi} (h : x.Reach clients) {tab : Table (EvtOperObj abi)}
    (htab : x.state.manger.regedOperObjs = some tab) :
    -- the table stands for the ids that are out
    (∀ i, i < x.state.manger.mayRegOperNumMax.toNat → (tab.entry i ≠ none ↔ BitVec.ofNat _ i ∈ x.live) ∧
      ∀ o, tab.entry i = some o → o.evtOperID = BitVec.ofNat _ i) ∧
    (∀ id, x.state.manger.isRegedOperID id = tosYes ↔ id ∈ x.live) ∧
    -- `regOper`
    (∀ {t : Thread} {a : Act abi} {args : EvtOperArgs} {x' : RegRun abi},
      x.state.calls t = some (.regOper args false) → x.next (t, a) = some x' →
      x'.state.manger = x.state.manger ∧ x'.live = x.live) ∧
    (∀ {t : Thread} {env : Env} {args : EvtOperArgs} {x' : RegRun abi},
      x.state.calls t = some (.regOper args true) → x.next (t, .run env) = some x' →
      ∃ r, Returns x.state x'.state t (.regOper args true) (some r) ∧
        (r = .success → ∃ id, x'.state.log = x.state.log ++ [.reged id, .ret t (some r)] ∧
          id.toNat < x.state.manger.mayRegOperNumMax.toNat ∧ id ∉ x.live ∧ x'.live = insert id x.live) ∧
        (r = .tooManyReged ↔ ∀ i, i < x.state.manger.mayRegOperNumMax.toNat → BitVec.ofNat _ i ∈ x.live) ∧
        (r ≠ .success → x'.state.manger = x.state.manger ∧ x'.live = x.live)) ∧
    -- `unregOper`
    ∀ {t : Thread} {env : Env} {id : EvtOperID abi} {x' : RegRun abi},
      x.state.calls t = some (.unregOper id) → x.next (t, .run env) = some x' →
      x'.live = x.live.erase id ∧ ∃ tab', x'.state.manger.regedOperObjs = some tab' ∧
        ∀ i, tab'.entry i ≠ tab.entry i → i = id.toNat ∧ tab'.entry i = none := by
  obtain ⟨hr, hI⟩ := regRun_reach h
  obtain ⟨hT, hR⟩ : x.state.manger.HasTables ∧ tab.Registers x.state.manger.mayRegOperNumMax x.live := by
    rcases hI with ⟨hN, -⟩ | ⟨hT, tab', htab', hR⟩
    · simp [hN.reg] at htab
    · rw [htab, Option.some.injEq] at htab'
      exact ⟨hT, htab' ▸ hR⟩
  have hslot : ∀ i, i < x.state.manger.mayRegOperNumMax.toNat →
      (BitVec.ofNat _ i ∈ x.live ↔ tab.entry i ≠ none) := by
    intro i hi
    rw [hR.slot, toNat_operID hi]
    exact and_iff_right hi
  refine ⟨fun i hi => ⟨(hslot i hi).symm, fun o => hR.own i o hi⟩, Manger.isRegedOperID_iff hR htab, ?_, ?_, ?_⟩
  · intro t a args x' hc hn
    obtain ⟨hs, hlive⟩ := RegRun.next_eq_some hn
    exact ⟨regOper_check hc hs, by rw [hlive, liveAfter_of_idle x.live (by simp [hc]) (by simp [hc])]⟩
  · intro t env args x' hc hn
    obtain ⟨hs, hlive⟩ := RegRun.next_eq_some hn
    obtain ⟨hm, hdone, hlog⟩ := regOper_next hc hs
    have hstep := (Manger.doRegOper_step hR htab args env).1
    have hlive' : x'.live = regOut x.live (x.state.manger.doRegOper args env).2.1 := by
      rw [hlive]
      simp [State.liveAfter, hc]
    have hall : (∀ i, i < x.state.manger.mayRegOperNumMax.toNat → BitVec.ofNat _ i ∈ x.live) ↔ _ := forall_mem_iff
    refine ⟨_, ⟨hc, hdone, _, by rw [hlog, List.append_assoc]⟩, ?_⟩
    -- the three ways out of the loop, as steps of the pool
    rcases Manger.doRegOper_cases htab args env with ⟨hfull, hout⟩ | ⟨i, hfree, ⟨-, hout⟩ | ⟨-, hout⟩⟩
    · rw [hout] at hm hlive' hstep ⊢
      have hsub := (hstep.full_iff fun id => by simp [regOp]).mp rfl
      exact ⟨fun hr => by simp at hr, iff_of_true rfl (hall.mpr hsub), fun _ => ⟨hm, hlive'⟩⟩
    · rw [hout] at hm hlive' hstep ⊢
      have hnot := (hstep.full_iff fun id => by simp [regOp]).not.mp (by simp [regOp])
      exact ⟨fun hr => by simp at hr, iff_of_false (by simp) (hall.not.mpr hnot), fun _ => ⟨hm, hlive'⟩⟩
    · rw [hout] at hm hlive' hstep hlog ⊢
      have hnot := (hstep.full_iff fun id => by simp [regOp]).not.mp (by simp [regOp])
      obtain ⟨hstock, hfresh⟩ := hstep.fresh
      exact ⟨fun _ => ⟨_, hlog, mem_operIDs.mp hstock, hfresh, hlive'⟩, iff_of_false (by simp) (hall.not.mpr hnot),
        fun hr => absurd rfl hr⟩
  · intro t env id x' hc hn
    obtain ⟨hs, hlive⟩ := RegRun.next_eq_some hn
    have hm := unregOper_next hc hs
    obtain ⟨tab', hm', -, hent⟩ := Manger.unregOper_step hR htab id
    refine ⟨by rw [hlive]; simp [State.liveAfter, hc], tab', by rw [hm, hm'], hent⟩

/-- The ids that were handed out, in order. -/
def regedIn (log : List (Obs abi)) : List (EvtOperID abi) :=
  log.filterMap fun
    | .reged id => some id
    | _ => none

/-- Two operators register, the first one leaves, and a third one gets its id. -/
theorem registry_allocates_reused :
    ∃ x : RegRun lp64, regedIn x.state.log = [0, 1, 0] ∧ x.live = {0, 1} ∧
      x.state.manger.isRegedOperID 0 = tosYes ∧ x.state.manger.isRegedOperID 1 = tosYes ∧
      x.state.manger.isRegedOperID 2 ≠ tosYes := by
  obtain ⟨x, hr, hx⟩ : ∃ x : RegRun lp64, x.Reach 1 ∧
      (decide (x.live = {0, 1}) && x.state.manger.regedOperObjs.isSome &&
        decide (regedIn x.state.log = [0, 1, 0])) = true :=
    Runs.exists_reach_of_runUnder
      [(.client 0, .call (.initEvtManger (some ⟨0, 0, 0, 0⟩))), (.client 0, .go),
       (.client 0, .call (.regOper ⟨0⟩)), (.client 0, .go), (.client 0, .go),
       (.client 0, .call (.regOper ⟨1⟩)), (.client 0, .go), (.client 0, .go),
       (.client 0, .call (.unregOper 0)), (.client 0, .go),
       (.client 0, .call (.regOper ⟨2⟩)), (.client 0, .go), (.client 0, .go)] _ (by decide +kernel)
  simp only [Bool.and_eq_true, decide_eq_true_eq] at hx
  obtain ⟨⟨hlive, hsome⟩, hlog⟩ := hx
  obtain ⟨tab, htab⟩ := Option.isSome_iff_exists.mp hsome
  have hreg := (registry_allocates hr htab).2.1
  have hne : (2 : EvtOperID lp64) ∉ ({0, 1} : Finset (EvtOperID lp64)) := by decide
  exact ⟨x, hlog, hlive, (hreg 0).mpr (by simp [hlive]), (hreg 1).mpr (by simp [hlive]),
    fun h => hne (hlive ▸ (hreg 2).mp h)⟩

end PlatIF.Evt
