import PlatIF.Evt.Live

/-!
# The dispatch loop and the subscription table

A dispatch holds the subscription table for reading from its first look at the rows to its end, so that the rows do
not change under it.

* `ReaderInv` — a dispatch past its `rdlock` is among the readers;
* `Manger.mayRead` — the dispatch still looks at its descriptor;
* `mayRead_ne`, `mayRead_self` — nobody else, and no step of the dispatch, makes it look again.
-/

namespace PlatIF.Evt

variable {abi : Abi} {s s' : State abi} {t : Thread} {a : Act abi} {env : Env} {clients q slot k : ℕ}
  {pc pc' : DispatchPc} {ok : State abi → Thread × Act abi → Prop}

theorem dispatch_of_update {f : ℕ → ProcerPc} {p : ℕ} {x : ProcerPc} (hx : ∀ slot k pc, x ≠ .dispatch slot k pc)
    (hp : Function.update f p x q = .dispatch slot k pc) : f q = .dispatch slot k pc := by
  by_cases hq : q = p
  · subst hq
    rw [Function.update_self] at hp
    exact absurd hp (hx slot k pc)
  · rwa [Function.update_of_ne hq] at hp

theorem dispatch_of_condSignal {p : ℕ} (hp : (s.condSignal p).procer q = .dispatch slot k pc) :
    s.procer q = .dispatch slot k pc := by
  unfold State.condSignal at hp
  split at hp
  · exact dispatch_of_update (by simp) hp
  · exact hp

theorem LifeStep.dispatch {c : Call abi} (h : LifeStep s t c s') (hp : s'.procer q = .dispatch slot k pc) :
    s.procer q = .dispatch slot k pc := by
  rcases h.procer_cases q with he | ⟨-, he⟩
  · exact he ▸ hp
  · simp [he] at hp

/-- A processor is found in a dispatch only by its own steps. -/
theorem Trans.dispatch_ne (h : Trans s t a s') (ht : t ≠ .procer q) (hp : s'.procer q = .dispatch slot k pc) :
    s.procer q = .dispatch slot k pc := by
  cases h with
  | life ha hc hl => exact hl.dispatch hp
  | signal => exact dispatch_of_condSignal hp
  | post => simpa using hp
  | call | table | cbRead | halt => exact hp
  | cancelJoin ha ht' | wait ht' | take ht' | wake ht' | cancelWait ha ht' | noTable ht' | rdlock ht'
  | endDispatch ht' | move ht' | compare ht' | callSuber ht' | cancelCb ha ht' =>
    have hq : q ≠ _ := fun h => ht (h ▸ ht')
    simpa [State.endDispatch, Function.update_of_ne hq] using hp

/-! ### The readers of the table -/

/-- A dispatch past its `rdlock` holds the table. -/
def ReaderInv (s : State abi) : Prop :=
  ∀ q slot k pc, s.procer q = .dispatch slot k pc → pc ≠ .rdlock → .procer q ∈ s.subReaders

theorem Trans.readers_ne (h : Trans s t a s') (ht : t ≠ .procer q) (hq : .procer q ∈ s.subReaders) :
    .procer q ∈ s'.subReaders := by
  cases h with
  | @endDispatch p _ _ _ ht' =>
    have hne : (Thread.procer q) ≠ .procer p := fun h => ht (ht'.trans h.symm)
    exact (List.mem_erase_of_ne hne).mpr hq
  | rdlock => exact List.mem_cons_of_mem _ hq
  | life ha hc hl => exact hl.subReaders ▸ hq
  | post => simpa using hq
  | signal => simpa using hq
  | _ => exact hq

theorem readerInv_trans (hR : ReaderInv s) (h : Trans s t a s') : ReaderInv s' := by
  intro q slot k pc hp hpc
  by_cases ht : t = .procer q
  · subst ht
    cases h with
    | call | table | cbRead | halt => exact hR q slot k pc hp hpc
    | life ha hc hl => exact hl.subReaders ▸ hR q slot k pc (hl.dispatch hp) hpc
    | signal => simpa using hR q slot k pc (dispatch_of_condSignal hp) hpc
    | post => exact (by simpa using hR q slot k pc (by simpa using hp) hpc)
    | cancelJoin ha ht' | wait ht' | wake ht' | cancelWait ha ht' | noTable ht' | endDispatch ht' | cancelCb ha ht' =>
      obtain rfl := Thread.procer.inj ht'
      simp [State.endDispatch] at hp
    | take ht' =>
      obtain rfl := Thread.procer.inj ht'
      simp only [State.setProcer, State.obs, Function.update_self, ProcerPc.dispatch.injEq] at hp
      exact absurd hp.2.2.symm hpc
    | rdlock ht' =>
      obtain rfl := Thread.procer.inj ht'
      exact List.mem_cons_self
    | move ht' hc hp' hm =>
      obtain rfl := Thread.procer.inj ht'
      refine hR q _ _ _ hp' fun h => ?_
      subst h
      simp at hm
    | compare ht' hc hp' hl hr hm =>
      obtain rfl := Thread.procer.inj ht'
      refine hR q _ _ _ hp' fun h => ?_
      subst h
      simp at hm
    | callSuber ht' hc hp' =>
      obtain rfl := Thread.procer.inj ht'
      exact hR q _ _ _ hp' (by simp)
  · exact h.readers_ne ht (hR q slot k pc (h.dispatch_ne ht hp) hpc)

theorem readerInv_reach (h : Reach ok clients s) : ReaderInv s :=
  h.induction (fun q slot k pc hp => by simp [State.init] at hp) fun _ _ _ _ _ hR _ _ h => readerInv_trans hR h

/-! ### Looks at the descriptor that are still to come -/

/-- `_mEvtPSDB_SubTable[row]`. -/
def Manger.subRow (m : Manger abi) (row : ℕ) : Option (Row abi) := m.subTable.bind fun tab => tab.entry row

/-- There is a row from `row` on. -/
def Manger.hasRowFrom (m : Manger abi) (row : ℕ) : Bool :=
  (List.range m.maySubEvtNumMax.toNat).any fun i => row ≤ i && (m.subRow i).isSome

/-- The dispatch will look at its descriptor, or hand it to a callback, or has a callback running that may look at
it; a dispatch that has not locked the table may find any rows. -/
def Manger.mayRead (m : Manger abi) : DispatchPc → Bool
  | .rdlock | .cmpClassmate _ _ | .call _ _ | .inCb _ _ => true
  | .row row => m.hasRowFrom row
  | .cmpClass row num => (m.subRow row).any (fun r => num ≤ r.evtIDs.length) || m.hasRowFrom (row + 1)

theorem Manger.hasRowFrom_iff {m : Manger abi} {row : ℕ} :
    m.hasRowFrom row = true ↔ ∃ i, row ≤ i ∧ i < m.maySubEvtNumMax.toNat ∧ m.subRow i ≠ none := by
  simp only [Manger.hasRowFrom, List.any_eq_true, List.mem_range, Bool.and_eq_true, decide_eq_true_eq,
    Option.isSome_iff_ne_none]
  constructor
  · rintro ⟨i, hi, hr, hs⟩
    exact ⟨i, hr, hi, hs⟩
  · rintro ⟨i, hr, hi, hs⟩
    exact ⟨i, hi, hr, hs⟩

/-- The descriptor of queue `q` is still looked at. -/
def State.mayRead (s : State abi) (q : ℕ) : Bool :=
  match s.procer q with
  | .dispatch _ _ pc => s.manger.mayRead pc
  | _ => false

theorem State.mayRead_of_dispatch (hp : s.procer q = .dispatch slot k pc) : s.mayRead q = s.manger.mayRead pc := by
  simp [State.mayRead, hp]

/-- The subscription table changes only while nobody reads it, or before it exists. -/
theorem TableStep.subTable {c : Call abi} {m : Manger abi} {n : ℕ} {c' : Option (Call abi)} {os : List (Obs abi)}
    (h : TableStep s t env c m n c' os) :
    s.subReaders = [] ∨ s.manger.state = .uninited ∨
      m.subTable = s.manger.subTable ∧ m.maySubEvtNumMax = s.manger.maySubEvtNumMax := by
  cases h with
  | sub hl => exact .inl hl
  | unsub hl => exact .inl hl
  | @init args hw =>
    have hi := s.manger.initEvtManger_step args env
    cases hs : s.manger.state with
    | uninited => exact .inr (.inl rfl)
    | ready | running =>
      have heq : s.manger.initEvtManger args env = (.badState, s.manger) := by
        simp [Manger.initEvtManger, hs]
      rw [heq]
      exact .inr (.inr ⟨rfl, rfl⟩)
  | @reg args r id m hm =>
    have honly := s.manger.doRegOper_only args env
    rw [hm] at honly
    rw [show m = _ from honly]
    exact .inr (.inr ⟨rfl, rfl⟩)
  | unreg =>
    rw [Manger.unregOper_only]
    exact .inr (.inr ⟨rfl, rfl⟩)
  | unpub =>
    rw [Manger.unpubEvts_only]
    exact .inr (.inr ⟨rfl, rfl⟩)
  | pubStore =>
    rw [Manger.storePubRow_only]
    exact .inr (.inr ⟨rfl, rfl⟩)
  | pubFill | pubDone =>
    rw [Manger.fillPubRow_only]
    exact .inr (.inr ⟨rfl, rfl⟩)
  | _ => exact .inr (.inr ⟨rfl, rfl⟩)

theorem Manger.mayRead_congr {m m' : Manger abi} (h : m'.subTable = m.subTable)
    (hn : m'.maySubEvtNumMax = m.maySubEvtNumMax) : m'.mayRead pc = m.mayRead pc := by
  cases pc <;> simp [Manger.mayRead, Manger.hasRowFrom, Manger.subRow, h, hn]

/-- A change of the tables makes no dispatch look again: one that goes through the rows keeps the table locked. -/
theorem TableStep.mayRead {c : Call abi} {m : Manger abi} {n : ℕ} {c' : Option (Call abi)} {os : List (Obs abi)}
    (hL : LiveInv s) (hR : ReaderInv s) (h : TableStep s t env c m n c' os) (hp : s.procer q = .dispatch slot k pc)
    (hm : m.mayRead pc = true) : s.manger.mayRead pc = true := by
  rcases h.subTable with hnil | hun | ⟨h1, h2⟩
  · by_cases hpc : pc = .rdlock
    · subst hpc
      rfl
    · have hmem := hR q slot k pc hp hpc
      simp [hnil] at hmem
  · -- a processor runs, so the manager is not in its initial state
    have hcur := (hL.live q (by simp [hp, ProcerPc.alive])).1
    exact absurd hun (hL.life.inited hcur)
  · rwa [← Manger.mayRead_congr h1 h2]

/-- The steps of a dispatch only come nearer to its last look. -/
theorem Manger.mayRead_move {m : Manger abi}
    (hm : (∃ row, pc = .row row ∧ row < m.maySubEvtNumMax.toNat ∧
        (m.subRow row = none ∧ pc' = .row (row + 1) ∨ m.subRow row ≠ none ∧ pc' = .cmpClass row 0)) ∨
      (∃ row num r, pc = .cmpClass row num ∧ m.subRow row = some r ∧ r.evtIDs.length < num ∧
        pc' = .row (row + 1)) ∨
      ∃ row num, pc = .inCb row num ∧ pc' = .cmpClass row (num + 1))
    (h : m.mayRead pc' = true) : m.mayRead pc = true := by
  rcases hm with ⟨row, rfl, hlt, ⟨-, rfl⟩ | ⟨hr, rfl⟩⟩ | ⟨row, num, r, rfl, -, -, rfl⟩ | ⟨row, num, rfl, -⟩
  · obtain ⟨i, hi, hx⟩ := Manger.hasRowFrom_iff.mp h
    exact Manger.hasRowFrom_iff.mpr ⟨i, by omega, hx⟩
  · exact Manger.hasRowFrom_iff.mpr ⟨row, le_rfl, hlt, hr⟩
  · simp only [Manger.mayRead] at h ⊢
    simp [h]
  · rfl

/-- A comparison looks at the descriptor. -/
theorem Manger.mayRead_compare {m : Manger abi} {row num : ℕ} {r : Row abi} (hr : m.subRow row = some r)
    (hm : pc = .cmpClass row num ∧ num ≤ r.evtIDs.length ∧ (pc' = .cmpClass row (num + 1) ∨
        pc' = .cmpClassmate row num) ∨
      pc = .cmpClassmate row num ∧ (pc' = .cmpClass row (num + 1) ∨ pc' = .call row num)) :
    m.mayRead pc = true := by
  rcases hm with ⟨rfl, hle, -⟩ | ⟨rfl, -⟩
  · simp [Manger.mayRead, hr, hle]
  · rfl

/-- Nobody else makes a dispatch look again. -/
theorem Trans.mayRead_ne (hL : LiveInv s) (hR : ReaderInv s) (h : Trans s t a s') (ht : t ≠ .procer q)
    (hp : s'.procer q = .dispatch slot k pc) (hm : s'.manger.mayRead pc = true) : s.manger.mayRead pc = true := by
  have hp₀ := h.dispatch_ne ht hp
  cases h with
  | table ha hc htab => exact htab.mayRead hL hR hp₀ hm
  | life ha hc hl => rwa [hl.tables] at hm
  | post | signal => simpa using hm
  | _ => exact hm

end PlatIF.Evt
