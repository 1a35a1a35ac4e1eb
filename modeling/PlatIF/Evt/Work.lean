import PlatIF.Evt.Polite
import PlatIF.Lib.Drain

/-!
# The work that is left

What clients and processor have begun, counted in steps: each program point is worth the steps to the end of its call or
loop, each queued event those of a dispatch, and a post also those of the event that it stores and of the processor that
it wakes.  The loops go through tables whose size is bounded by a number `n`, and so is what the calls in progress add
to them (`State.Within`).

* `busy` — the steps that count: not a new call, not a spurious wake-up, not a look of a callback at its descriptor;
* `exists_within` — there is such an `n`, and busy steps keep it;
* `work_lt` — a busy step leaves less work than there was.
-/

namespace PlatIF.Evt

variable {abi : Abi} {s s' : State abi} {t u : Thread} {a : Act abi} {env : Env} {clients q slot k n j : ℕ}
  {c : Call abi} {c' : Option (Call abi)} {m : Manger abi} {os : List (Obs abi)} {pc pc' : DispatchPc}
  {ok : State abi → Thread × Act abi → Prop}

/-! ### The steps that count -/

/-- The step goes on with what was begun, politely. -/
def busy (s : State abi) (x : Thread × Act abi) : Bool :=
  match x.2 with
  | .call _ | .wake | .cbRead => false
  | _ => s.waitSafe x && s.stopsIdle x

theorem polite_of_busy {x : Thread × Act abi} (h : busy s x = true) : s.polite x = true := by
  obtain ⟨t, a⟩ := x
  cases a with
  | call | wake | cbRead => simp [busy] at h
  | run | cbRet | cancel =>
    rw [State.polite_iff]
    refine ⟨?_, by simpa [busy] using h⟩
    cases t <;> rfl

/-! ### Sizes -/

/-- The tables have `n` rows at most, of `n` identifiers at most. -/
structure Manger.Within (m : Manger abi) (n : ℕ) : Prop where
  pub : m.mayPubEvtNumMax.toNat ≤ n
  sub : m.maySubEvtNumMax.toNat ≤ n
  rows : ∀ row r, m.subRow row = some r → r.evtIDs.length ≤ n

/-- What a call may make of the tables. -/
def Call.size : Call abi → ℕ
  | .initEvtManger (some args) => max args.mayPubEvtNumMax.toNat args.maySubEvtNumMax.toNat
  | .subEvts _ ids _ _ => ids.length
  | _ => 0

/-- The same holds after the calls in progress. -/
structure State.Within (s : State abi) (n : ℕ) : Prop where
  manger : s.manger.Within n
  calls : ∀ t c, s.calls t = some c → c.size ≤ n

theorem Manger.Within.mono (h : m.Within n) (hn : n ≤ j) : m.Within j :=
  ⟨h.pub.trans hn, h.sub.trans hn, fun row r hr => (h.rows row r hr).trans hn⟩

theorem State.Within.mono (h : s.Within n) (hn : n ≤ j) : s.Within j :=
  ⟨h.manger.mono hn, fun t c hc => (h.calls t c hc).trans hn⟩

/-- Other variables do not matter. -/
theorem Manger.Within.congr {m' : Manger abi} (h : m.Within n) (hp : m'.mayPubEvtNumMax = m.mayPubEvtNumMax)
    (hs : m'.maySubEvtNumMax = m.maySubEvtNumMax) (ht : m'.subTable = m.subTable) : m'.Within n where
  pub := hp ▸ h.pub
  sub := hs ▸ h.sub
  rows row r hr := h.rows row r (by rwa [Manger.subRow, ht] at hr)

/-- A row that is written is not longer. -/
theorem Manger.Within.setRow (h : m.Within n) {tab : Table (Row abi)} (ht : m.subTable = some tab) (i : ℕ)
    {x : Option (Row abi)} (hx : ∀ r, x = some r → r.evtIDs.length ≤ n) :
    Manger.Within { m with subTable := some (tab.set i x) } n where
  pub := h.pub
  sub := h.sub
  rows row r hr := by
    by_cases hi : row = i
    · subst hi
      exact hx r (by simpa [Manger.subRow, Table.set] using hr)
    · refine h.rows row r ?_
      simpa [Manger.subRow, ht, Table.set, Function.update_of_ne hi] using hr

theorem Manger.Within.init : (Manger.init : Manger abi).Within 16 where
  pub := by simp [Manger.init]
  sub := by simp [Manger.init]
  rows row r hr := by simp [Manger.init, Manger.subRow] at hr

theorem doSubEvts_within (h : m.Within n) (id : EvtOperID abi) (ids : List EvtID) (args : EvtSubArgs) (env : Env)
    (hids : ids.length ≤ n) : (m.doSubEvts id ids args env).2.Within n := by
  unfold Manger.doSubEvts
  split
  · exact h
  · rename_i tab ht
    split
    · exact h
    · split
      · exact h
      · split
        · exact h
        · exact h.setRow ht _ fun r hr => by
            obtain rfl := Option.some.inj hr
            exact hids

theorem unsubEvts_within (h : m.Within n) (id : EvtOperID abi) : (m.unsubEvts id).Within n := by
  unfold Manger.unsubEvts
  split
  · exact h
  · rename_i tab ht
    split
    · exact h
    · exact h.setRow ht _ fun r hr => by cases hr

theorem limit_le {w : ℕ} {param old : BitVec w} (h : param.toNat ≤ n) (h' : old.toNat ≤ n) :
    (Manger.limit param old).toNat ≤ n := by
  unfold Manger.limit
  split <;> assumption

theorem toNat_setWidth_le (x : BitVec 16) (h : x.toNat ≤ n) : (x.setWidth 32).toNat ≤ n := by
  rw [BitVec.toNat_setWidth]
  exact (Nat.mod_le _ _).trans h

/-- New tables are empty, and as long as the arguments say or as the old limits. -/
theorem initStep_within {args : Option EvtMangerModArgs} {r : TosResult} {m' : Manger abi} (h : m.Within n)
    (hc : (Call.initEvtManger args : Call abi).size ≤ n) (hi : Manger.InitStep m args env r m') : m'.Within n := by
  cases hi with
  | badState => exact h
  | null => exact h.congr rfl rfl rfl
  | @done x m' hs ha hm =>
    subst ha
    obtain ⟨hp, hs⟩ := max_le_iff.mp hc
    rw [Manger.initTables_success m hm]
    refine ⟨limit_le (toNat_setWidth_le _ hp) h.pub, limit_le (toNat_setWidth_le _ hs) h.sub, fun row r hr => ?_⟩
    simp [Manger.subRow, Table.calloc] at hr
  | @failed x r m' hs ha hm hr =>
    subst ha
    obtain ⟨hp, hs⟩ := max_le_iff.mp hc
    obtain ⟨-, -, -, -, hsub, -, -, -, hpub', hsub', -⟩ := Manger.initTables_failure m hm hr
    refine ⟨?_, ?_, fun row r hr => by simp [Manger.subRow, hsub] at hr⟩
    · rcases hpub' with he | he <;> rw [he]
      · exact h.pub
      · exact limit_le (toNat_setWidth_le _ hp) h.pub
    · rcases hsub' with he | he <;> rw [he]
      · exact h.sub
      · exact limit_le (toNat_setWidth_le _ hs) h.sub

theorem TableStep.within (h : TableStep s t env c m k c' os) (hm : s.manger.Within n) (hc : c.size ≤ n) :
    m.Within n ∧ ∀ x, c' = some x → x.size ≤ n := by
  cases h with
  | @init args hw => exact ⟨initStep_within hm hc (s.manger.initEvtManger_step args env), by simp⟩
  | disableNone => exact ⟨hm.congr rfl rfl rfl, by simp⟩
  | @reg args r id m hreg =>
    have honly := s.manger.doRegOper_only args env
    rw [hreg] at honly
    rw [show m = _ from honly]
    exact ⟨hm.congr rfl rfl rfl, by simp⟩
  | unreg =>
    rw [Manger.unregOper_only]
    exact ⟨hm.congr rfl rfl rfl, by simp⟩
  | unpub =>
    rw [Manger.unpubEvts_only]
    exact ⟨hm.congr rfl rfl rfl, by simp⟩
  | pubStore =>
    rw [Manger.storePubRow_only]
    exact ⟨hm.congr rfl rfl rfl, by simp [Call.size]⟩
  | pubFill | pubDone =>
    rw [Manger.fillPubRow_only]
    exact ⟨hm.congr rfl rfl rfl, by simp [Call.size]⟩
  | @sub id ids args hl => exact ⟨doSubEvts_within hm id ids args env hc, by simp⟩
  | unsub => exact ⟨unsubEvts_within hm _, by simp⟩
  | subCheck => exact ⟨hm, fun x hx => Option.some.inj hx ▸ hc⟩
  | _ => exact ⟨hm, by simp [Call.size]⟩

/-- What is left of a call that enables or disables makes nothing of the tables. -/
theorem LifeStep.size (h : LifeStep s t c s') {c₁ : Call abi} (hc : s'.calls t = some c₁) : c₁.size = 0 := by
  cases h with
  | enabled | disabled => simp at hc
  | enable | initMutex | initCond | create | disable | destroyMutex | destroyCond | free | clear =>
    simp only [State.setCall, Function.update_self, Option.some.injEq] at hc
    rw [← hc]
    rfl

/-- Only a new call makes more of the tables. -/
theorem Trans.within (h : Trans s t a s') (hW : s.Within n) (ha : ∀ api, a = .call api → api.toCall.size ≤ n) :
    s'.Within n := by
  have hrest := fun {u} => h.calls_ne (u := u)
  have hupd : ∀ {x : Option (Call abi)}, (∀ c, x = some c → c.size ≤ n) →
      ∀ u c, Function.update s.calls t x u = some c → c.size ≤ n := by
    intro x hx u c hu
    by_cases hut : u = t
    · subst hut
      rw [Function.update_self] at hu
      exact hx c hu
    · rw [Function.update_of_ne hut] at hu
      exact hW.calls u c hu
  cases h with
  | call ha' => exact ⟨hW.manger, hupd fun c hc => Option.some.inj hc ▸ ha _ ha'⟩
  | table ha' hc htab =>
    obtain ⟨hm, hc'⟩ := htab.within hW.manger (hW.calls t _ hc)
    exact ⟨hm, hupd hc'⟩
  | life ha' hc hl =>
    refine ⟨?_, fun u c hu => ?_⟩
    · rw [hl.tables]
      exact hW.manger.congr rfl rfl rfl
    · by_cases hut : u = t
      · subst hut
        rw [hl.size hu]
        exact Nat.zero_le n
      · exact hW.calls u c ((hrest hut).symm.trans hu)
  | cancelJoin => exact ⟨hW.manger, hupd (by simp)⟩
  | post =>
    refine ⟨by simpa using hW.manger, ?_⟩
    simpa using hupd fun c hc => by simp [← Option.some.inj hc, Call.size]
  | signal => exact ⟨by simpa using hW.manger, by simpa using hupd (by simp)⟩
  | _ => exact ⟨hW.manger, hW.calls⟩

theorem exists_within (h : Reach ok clients s) : ∃ n, s.Within n := by
  refine h.induction (P := fun s => ∃ n, s.Within n) ⟨16, .init, by simp [State.init]⟩ ?_
  rintro s s' t a hr ⟨n, hW⟩ - - h
  cases a with
  | call api =>
    refine ⟨max n api.toCall.size, h.within (hW.mono (le_max_left ..)) fun api' he => ?_⟩
    obtain rfl := Act.call.inj he
    exact le_max_right ..
  | _ => exact ⟨n, h.within hW fun api he => by cases he⟩

/-! ### What is left to do -/

/-- The steps of the loop over the identifiers of a row. -/
def rowWork (n : ℕ) : ℕ := 4 * (n + 1) + 2

/-- The steps to the end of a dispatch. -/
def DispatchPc.work (n : ℕ) : DispatchPc → ℕ
  | .rdlock => n * rowWork n + 2
  | .row i => (n - i) * rowWork n + 1
  | .cmpClass i num => (n - (i + 1)) * rowWork n + 4 * (n + 1 - num) + 2
  | .cmpClassmate i num => (n - (i + 1)) * rowWork n + 4 * (n - num) + 5
  | .call i num => (n - (i + 1)) * rowWork n + 4 * (n - num) + 4
  | .inCb i num => (n - (i + 1)) * rowWork n + 4 * (n - num) + 3

/-- The steps of the processor to its wait and its end. -/
def ProcerPc.work (n : ℕ) : ProcerPc → ℕ
  | .absent | .ended => 0
  | .waiting => 1
  | .top | .woken => 2
  | .dispatch _ _ pc => pc.work n + 2

/-- The steps for a queued event. -/
def eventWork (n : ℕ) : ℕ := n * rowWork n + 3

def PostPc.work (n : ℕ) : PostPc → ℕ
  | .check => eventWork n + 5
  | .load => eventWork n + 4
  | .lock _ => eventWork n + 3
  | .signal _ => 2

/-- The stores that fill a row in, and the return. -/
def FillPc.work (evtIDs : List EvtID) : FillPc → ℕ
  | .roleType => evtIDs.length + 4
  | .numIDs => evtIDs.length + 3
  | .evtPuberID => evtIDs.length + 2
  | .evtID num => evtIDs.length - num + 1

def PubPc.work (n : ℕ) (evtIDs : List EvtID) : PubPc → ℕ
  | .check => n + evtIDs.length + 8
  | .scan row => n + 1 - row + evtIDs.length + 6
  | .store _ => evtIDs.length + 5
  | .fill _ _ pc => pc.work evtIDs

/-- With the two steps of the processor that is created. -/
def EnablePc.work : EnablePc → ℕ
  | .lock => 7
  | .initMutex _ => 6
  | .initCond _ => 5
  | .create _ => 4
  | .unlock => 1

def DisablePc.work : DisablePc → ℕ
  | .lock => 6
  | .join _ => 5
  | .destroyCond _ => 4
  | .free _ => 3
  | .clear _ => 2
  | .unlock _ => 1

/-- The steps of a call, with those of the processor that it creates or wakes and those of the event that it posts. -/
def Call.work (n : ℕ) : Call abi → ℕ
  | .initEvtManger _ | .deinitEvtManger | .unregOper _ | .unpubEvts _ | .unsubEvts _ => 1
  | .enableEvtManger pc => pc.work
  | .disableEvtManger pc => pc.work
  | .regOper _ false | .subEvts _ _ _ false => 2
  | .regOper _ true | .subEvts _ _ _ true => 1
  | .pubEvts _ ids pc => pc.work n ids
  | .postEvtSRT _ _ pc => pc.work n

/-- Nothing, where there is no call. -/
def callWork (n : ℕ) (x : Option (Call abi)) : ℕ := x.elim 0 (Call.work n)

namespace State

variable (s : State abi) (n : ℕ)

/-- What is left to do of the calls in progress. -/
def callsWork : ℕ := ∑ t ∈ s.threads.toFinset, callWork n (s.calls t)

/-- What is left to do for the current queue: by its processor, and for the events in it. -/
def queueWork : ℕ := s.evtQueue.elim 0 fun q => (s.procer q).work n + (s.queue q).curEvtNum.toNat * eventWork n

/-- What is left to do.  The last step of a process may be the one that ends it. -/
def work : ℕ := s.callsWork n + s.queueWork n + if s.halted = none then 1 else 0

end State

/-! ### Calls -/

theorem callsWork_next {ok : State abi → Thread × Act abi → Prop} (hr : Reach ok clients s) (hr' : Reach ok clients s')
    (h : Trans s t a s') (n : ℕ) :
    s'.callsWork n + callWork n (s.calls t) = s.callsWork n + callWork n (s'.calls t) := by
  have hnone : ∀ {s : State abi}, Reach ok clients s → ∀ u, u ∉ s.threads.toFinset → callWork n (s.calls u) = 0 := by
    intro s hr u hu
    have hc : s.calls u = none := by
      by_contra hc
      exact hu (List.mem_toFinset.mpr (mem_threads hr hc))
    rw [hc]
    rfl
  exact Runs.sum_of_update (hnone hr) (hnone hr') fun u hu => by rw [h.calls_ne hu]

theorem FillPc.work_lt {ids : List EvtID} {pc pc' : FillPc} (h : pc.next ids = some pc') : pc'.work ids < pc.work ids := by
  cases pc with
  | roleType | numIDs =>
    obtain rfl := Option.some.inj h
    exact Nat.lt_succ_self _
  | evtPuberID | evtID num =>
    simp only [FillPc.next, Option.ite_none_right_eq_some, Option.some.injEq] at h
    obtain ⟨hlt, rfl⟩ := h
    simp only [FillPc.work]
    omega

theorem FillPc.work_pos {ids : List EvtID} {pc : FillPc} : 0 < pc.work ids := by
  cases pc <;> exact Nat.succ_pos _

/-- The steps on the tables take work away, if the loop over the publications does. -/
theorem TableStep.work_lt (h : TableStep s t env c m k c' os) (n : ℕ)
    (hpub : ∀ id ids row, c = .pubEvts id ids (.scan row) → c' = some (.pubEvts id ids (.scan (row + 1))) → row ≤ n) :
    callWork n c' < c.work n := by
  cases h with
  | @pubNext id ids row =>
    have hle := hpub id ids row rfl rfl
    simp only [callWork, Option.elim, Call.work, PubPc.work]
    omega
  | pubFill hf hnext => exact FillPc.work_lt hnext
  | @pubDone id ids row p pc => exact FillPc.work_pos
  | _ =>
    simp only [callWork, Option.elim, Call.work, PubPc.work, FillPc.work, PostPc.work, EnablePc.work, DisablePc.work]
    omega

/-- The loop over the publications goes no further than the limit. -/
theorem scan_le {id : EvtOperID abi} {ids : List EvtID} {i : ℕ} (hc : s.calls t = some (.pubEvts id ids (.scan i)))
    (hn : next s (t, .run env) = some s') (hc' : s'.calls t = some (.pubEvts id ids (.scan (i + 1)))) :
    i ≤ s.manger.mayPubEvtNumMax.toNat := by
  by_contra hgt
  have hh := (next_trans hn).1
  simp only [next, hh, hc, Option.isSome_none, Bool.false_eq_true, if_false, State.callStep, State.pubEvts] at hn
  split at hn
  · obtain rfl := Option.some.inj hn
    simp [hc] at hc'
  · rw [if_pos (Nat.not_le.mp hgt)] at hn
    obtain rfl := Option.some.inj hn
    simp at hc'

/-! ### The processor -/

/-- A step of the loops of a dispatch. -/
theorem move_work_lt (hW : s.manger.Within n)
    (hm : (∃ row, pc = .row row ∧ row < s.manger.maySubEvtNumMax.toNat ∧
        (s.subRow row = none ∧ pc' = .row (row + 1) ∨ s.subRow row ≠ none ∧ pc' = .cmpClass row 0)) ∨
      (∃ row num r, pc = .cmpClass row num ∧ s.subRow row = some r ∧ r.evtIDs.length < num ∧
        pc' = .row (row + 1)) ∨
      ∃ row num, pc = .inCb row num ∧ pc' = .cmpClass row (num + 1)) :
    pc'.work n < pc.work n := by
  rcases hm with ⟨row, rfl, hlt, hx⟩ | ⟨row, num, r, rfl, -, -, rfl⟩ | ⟨row, num, rfl, rfl⟩
  · have hn : n - row = (n - (row + 1)) + 1 := by
      have := hW.sub
      omega
    have hrow : (n - row) * rowWork n = (n - (row + 1)) * rowWork n + (4 * (n + 1) + 2) := by
      rw [hn, Nat.succ_mul]
      rfl
    rcases hx with ⟨-, rfl⟩ | ⟨-, rfl⟩
    · simp only [DispatchPc.work, hrow]
      omega
    · simp only [DispatchPc.work, hrow]
      omega
  · simp only [DispatchPc.work]
    omega
  · simp only [DispatchPc.work]
    omega

theorem compare_work_lt {row num : ℕ} {r : Row abi} (hW : s.manger.Within n) (hr : s.subRow row = some r)
    (hm : pc = .cmpClass row num ∧ num ≤ r.evtIDs.length ∧ (pc' = .cmpClass row (num + 1) ∨
        pc' = .cmpClassmate row num) ∨
      pc = .cmpClassmate row num ∧ (pc' = .cmpClass row (num + 1) ∨ pc' = .call row num)) :
    pc'.work n < pc.work n := by
  have hlen := hW.rows row r hr
  rcases hm with ⟨rfl, hle, rfl | rfl⟩ | ⟨rfl, rfl | rfl⟩ <;> simp only [DispatchPc.work] <;> omega

theorem queueWork_of_current (hq : s.evtQueue = some q) (n : ℕ) :
    s.queueWork n = (s.procer q).work n + (s.queue q).curEvtNum.toNat * eventWork n := by
  rw [State.queueWork, hq]
  rfl

/-- A step of the processor that leaves the queue alone. -/
theorem queueWork_lt (hL : LiveInv s) (ha : (s.procer q).alive) (hq : s'.evtQueue = s.evtQueue)
    (hnum : (s'.queue q).curEvtNum = (s.queue q).curEvtNum) (hlt : (s'.procer q).work n < (s.procer q).work n) :
    s'.queueWork n < s.queueWork n := by
  have hcur := (hL.live q ha).1
  rw [queueWork_of_current hcur, queueWork_of_current (hq.trans hcur), hnum]
  omega

/-- The same, for a processor that moves on in its dispatch. -/
theorem dispatch_work_lt (hL : LiveInv s) (hp : s.procer q = .dispatch slot k pc) (hq : s'.evtQueue = s.evtQueue)
    (hnum : (s'.queue q).curEvtNum = (s.queue q).curEvtNum) (hp' : s'.procer q = .dispatch slot k pc')
    (hlt : pc'.work n < pc.work n) : s'.queueWork n < s.queueWork n := by
  refine queueWork_lt hL (by simp [hp, ProcerPc.alive]) hq hnum ?_
  rw [hp, hp']
  exact Nat.add_lt_add_right hlt 2

/-- A processor with no call in progress does something in a busy step. -/
theorem procer_of_busy (hc : s.calls (.procer q) = none) (hok : busy s (.procer q, a) = true)
    (hn : next s (.procer q, a) = some s') :
    ¬ (s.procer q = .waiting ∧ s'.procer q = .woken) ∧
      ¬ ((s.procer q).isInCb = true ∧ s'.procer q = s.procer q) := by
  have hh := (next_trans hn).1
  simp only [next, hh, hc, Option.isSome_none, Bool.false_eq_true, if_false] at hn
  constructor
  · rintro ⟨hp, hp'⟩
    cases a with
    | call | wake | cbRead => simp [busy] at hok
    | run | cbRet => simp [State.procerStep, hp] at hn
    | cancel =>
      simp only [State.procerStep, hp, State.cancelWait] at hn
      split at hn
      · simp at hn
      · obtain rfl := Option.some.inj hn
        simp at hp'
  · rintro ⟨hcb, hp'⟩
    unfold ProcerPc.isInCb at hcb
    split at hcb
    · rename_i slot k row num hp
      cases a with
      | call | wake | cbRead => simp [busy] at hok
      | run => simp [State.procerStep, hp, State.cbStep] at hn
      | cbRet =>
        simp only [State.procerStep, hp, State.cbStep, Option.some.injEq] at hn
        subst hn
        simp [hp] at hp'
      | cancel =>
        simp only [State.procerStep, hp, State.cbStep] at hn
        split at hn
        · obtain rfl := Option.some.inj hn
          simp [hp] at hp'
        · simp at hn
    · simp at hcb

theorem take_curEvtNum {x : EvtQueue abi} (hne : x.curEvtNum ≠ 0) :
    x.take.2.curEvtNum.toNat + 1 = x.curEvtNum.toNat := by
  have hpos : x.curEvtNum.toNat ≠ 0 := fun h0 => hne (BitVec.eq_of_toNat_eq (by simpa using h0))
  have hle : (1 : BitVec 16) ≤ x.curEvtNum := by
    rw [BitVec.le_def]
    exact Nat.pos_of_ne_zero hpos
  show (x.curEvtNum - 1).toNat + 1 = x.curEvtNum.toNat
  rw [BitVec.toNat_sub_of_le hle]
  exact Nat.sub_add_cancel (Nat.pos_of_ne_zero hpos)

/-- A processor that takes an event. -/
theorem take_work_lt (hL : LiveInv s) (hp : s.procer q = .top ∨ s.procer q = .woken) (hne : (s.queue q).curEvtNum ≠ 0)
    (hq : s'.evtQueue = s.evtQueue) (hp' : ∃ slot k, s'.procer q = .dispatch slot k .rdlock)
    (hx : s'.queue q = (s.queue q).take.2) : s'.queueWork n < s.queueWork n := by
  obtain ⟨slot, k, hp'⟩ := hp'
  have hcur := (hL.live q (by rcases hp with hp | hp <;> simp [hp, ProcerPc.alive])).1
  have hwork : (s.procer q).work n = 2 := by rcases hp with hp | hp <;> simp [hp, ProcerPc.work]
  rw [queueWork_of_current hcur, queueWork_of_current (hq.trans hcur), hwork, hp', hx, ← take_curEvtNum hne,
    Nat.succ_mul]
  simp only [ProcerPc.work, DispatchPc.work, eventWork]
  omega

theorem post_curEvtNum_le (x : EvtQueue abi) (id : EvtOperID abi) (d : EvtDesc abi) :
    (x.post id d).2.1.curEvtNum.toNat ≤ x.curEvtNum.toNat + 1 := by
  unfold EvtQueue.post
  split
  · exact Nat.le_succ _
  · rw [BitVec.toNat_add]
    exact Nat.mod_le _ _

/-- A write through a pointer leaves the number of events. -/
theorem writeBack_curEvtNum (s : State abi) (place : Option (ℕ × ℕ)) (d : EvtDesc abi) (q : ℕ) :
    ((s.writeBack place d).queue q).curEvtNum = (s.queue q).curEvtNum := by
  cases place with
  | none => rfl
  | some x =>
    by_cases hq : q = x.1
    · subst hq
      simp [State.writeBack, EvtQueue.writeSlot]
    · simp [State.writeBack, Function.update_of_ne hq]

/-- A post brings one event, to one queue. -/
theorem queueWork_post_le {i : EvtOperID abi} {d d' : EvtDesc abi} {place : Option (ℕ × ℕ)} (hq : s'.evtQueue = s.evtQueue)
    (hp : s'.procer = s.procer)
    (hs : s'.queues = ((s.setQueue q ((s.queue q).post i d).2.1).writeBack place d').queues) :
    s'.queueWork n ≤ s.queueWork n + eventWork n := by
  cases hcur : s.evtQueue with
  | none => simp [State.queueWork, hq, hcur]
  | some p =>
    have hnum : (s'.queue p).curEvtNum.toNat ≤ (s.queue p).curEvtNum.toNat + 1 := by
      show (s'.queues p).queue.curEvtNum.toNat ≤ _
      rw [hs]
      refine (congrArg BitVec.toNat (writeBack_curEvtNum _ _ _ p)).trans_le ?_
      by_cases hpq : p = q
      · subst hpq
        simpa using post_curEvtNum_le (s.queue p) i d
      · simp [Function.update_of_ne hpq]
    rw [queueWork_of_current hcur, queueWork_of_current (hq.trans hcur), hp]
    have := Nat.mul_le_mul_right (eventWork n) hnum
    rw [Nat.succ_mul] at this
    omega

/-- A signal wakes one processor. -/
theorem queueWork_signal_le : (s.condSignal q).queueWork n ≤ s.queueWork n + 1 := by
  cases hcur : s.evtQueue with
  | none =>
    have hcur' : (s.condSignal q).evtQueue = none := by simpa [State.evtQueue] using hcur
    simp [State.queueWork, hcur, hcur']
  | some p =>
    have hcur' : (s.condSignal q).evtQueue = some p := by simpa [State.evtQueue] using hcur
    rw [queueWork_of_current hcur, queueWork_of_current hcur', State.condSignal]
    split
    · rename_i hw
      by_cases hpq : p = q
      · subst hpq
        simp [hw, ProcerPc.work]
        omega
      · simp [Function.update_of_ne hpq]
    · omega

/-- Nothing is left to do for a queue that is not there. -/
theorem queueWork_none (hq : s.evtQueue = none) (n : ℕ) : s.queueWork n = 0 := by
  rw [State.queueWork, hq]
  rfl

/-- A step that sets up or stops a queue takes work away from its call. -/
theorem LifeStep.work_lt (hL : LiveInv s) (hc : s.calls t = some c) (h : LifeStep s t c s') (n : ℕ) :
    callWork n (s'.calls t) + s'.queueWork n < callWork n (some c) + s.queueWork n := by
  have hP := hL.phase t c hc
  -- a step that leaves the queue and its processor as they are
  have hsame : s'.evtQueue = s.evtQueue → s'.procer = s.procer →
      (∀ q, (s'.queue q).curEvtNum = (s.queue q).curEvtNum) → s'.queueWork n = s.queueWork n := by
    intro hq hp hnum
    rw [State.queueWork, State.queueWork, hq, hp]
    simp only [hnum]
  cases h with
  | @enable tab idx hw hs hq hf =>
    obtain ⟨rfl, h0⟩ := hL.life.firstFree hf
    have hnone : s.evtQueue = none := by simp [State.evtQueue, hq, h0]
    have hcur : ((s.createQueue t 0 tab).setCall t (some (.enableEvtManger (.initMutex s.nextQueue)))).evtQueue =
        some s.nextQueue := by simp [State.evtQueue, Table.set]
    have hfresh := (hL.fresh s.nextQueue le_rfl).1
    have hempty : (QueueObj.zero : QueueObj abi).queue.curEvtNum.toNat = 0 := rfl
    rw [queueWork_none hnone, queueWork_of_current hcur]
    simp [callWork, Call.work, EnablePc.work, ProcerPc.work, hfresh, hempty]
  | @initMutex q | @initCond q =>
    rw [hsame rfl rfl fun p => by by_cases hp : p = q <;> simp [hp, Function.update_of_ne]]
    simp [callWork, Call.work, EnablePc.work]
  | @create q =>
    obtain ⟨-, hq, habsent, -⟩ := hP
    have hq' : ((s.setProcer q .top).setCall t (some (.enableEvtManger .unlock))).evtQueue = some q := hq
    rw [queueWork_of_current hq, queueWork_of_current hq']
    simp [callWork, Call.work, EnablePc.work, ProcerPc.work, habsent]
    omega
  | enabled =>
    rw [hsame rfl rfl fun p => rfl]
    simp [callWork, Call.work, EnablePc.work]
  | disable =>
    rw [hsame rfl rfl fun p => rfl]
    simp [callWork, Call.work, DisablePc.work]
  | @destroyMutex q | @destroyCond q | @free q =>
    rw [hsame rfl rfl fun p => by by_cases hp : p = q <;> simp [hp, Function.update_of_ne]]
    simp [callWork, Call.work, DisablePc.work]
  | @clear q =>
    have hnone : (s.clearQueue.setCall t (some (.disableEvtManger (.unlock q)))).evtQueue = none := by
      simp only [State.evtQueue, State.clearQueue, State.setManger, State.setCall]
      cases s.manger.evtQueueProcer <;> simp [Table.set]
    rw [queueWork_none hnone]
    simp [callWork, Call.work, DisablePc.work]
    omega
  | disabled =>
    rw [hsame rfl rfl fun p => rfl]
    simp [callWork, Call.work, DisablePc.work]

/-! ### The law -/

/-- What a step does to the work: the calls give up some, and the rest gets less than that. -/
theorem work_lt_of {ok : State abi → Thread × Act abi → Prop} (hr : Reach ok clients s) (hr' : Reach ok clients s')
    (h : Trans s t a s') (hh : s.halted = none)
    (hlt : callWork n (s'.calls t) + s'.queueWork n < callWork n (s.calls t) + s.queueWork n ∨
      s'.calls = s.calls ∧ s'.queueWork n = s.queueWork n ∧ s'.halted ≠ none) : s'.work n < s.work n := by
  have hcalls := callsWork_next hr hr' h n
  have hle : (if s'.halted = none then 1 else 0) ≤ 1 := by split <;> omega
  rw [State.work, State.work, if_pos hh]
  rcases hlt with hlt | ⟨hc, hq, hh'⟩
  · omega
  · rw [hc] at hcalls
    rw [if_neg hh']
    omega

theorem work_lt (hr : Reach (fun s x => s.polite x = true) clients s) (hW : s.Within n) (hok : busy s (t, a) = true)
    (hn : next s (t, a) = some s') : s'.work n < s.work n := by
  have hr' : Reach (fun s x => s.polite x = true) clients s' := hr.tail (t, a) (polite_of_busy hok) hn
  have hL := liveInv_reach hr
  obtain ⟨hh, h⟩ := next_trans hn
  have hcalls : s'.calls = s.calls → s'.queueWork n < s.queueWork n →
      callWork n (s'.calls t) + s'.queueWork n < callWork n (s.calls t) + s.queueWork n := fun hc hlt => by
    rw [hc]
    omega
  refine work_lt_of hr hr' h hh ?_
  cases h with
  | call ha =>
    subst ha
    simp [busy] at hok
  | @table env c m k c' os ha hc htab =>
    subst ha
    left
    have hlt := htab.work_lt n fun id ids row hc₀ hc₁ => by
      subst hc₀
      exact (scan_le hc hn (by simp [hc₁])).trans hW.manger.pub
    have hq : (s.tableStep t m k c' os).queueWork n = s.queueWork n := by
      have hcur : (s.tableStep t m k c' os).evtQueue = s.evtQueue := (htab.ordinary hL (stateLock_reach hr) hc).queue
      rw [State.queueWork, State.queueWork, hcur]
      rfl
    rw [hq, hc]
    simpa [callWork] using hlt
  | life ha hc hl =>
    left
    rw [hc]
    exact hl.work_lt hL hc n
  | @cancelJoin p p' ha ht hc =>
    subst ht
    have hpolite := politeInv_reach hr p _ hc
    simp [Call.polite] at hpolite
  | @post env id arg p d place ha hc =>
    left
    refine lt_of_le_of_lt (Nat.add_le_add_left
      (queueWork_post_le (q := p) (i := id) (d := d) (by simp [State.evtQueue]) (by simp) rfl) _) ?_
    rw [hc]
    simp [callWork, Call.work, PostPc.work]
    omega
  | @signal env id arg p ha hc =>
    left
    have hle := queueWork_signal_le (s := s) (q := p) (n := n)
    have hq : ((s.condSignal p).ret t (some .success)).queueWork n = (s.condSignal p).queueWork n := rfl
    rw [hq, hc]
    simp [callWork, Call.work, PostPc.work]
    omega
  | @take p ht hc hp hl hm hne =>
    exact .inl (hcalls rfl (take_work_lt hL hp hne rfl ⟨_, _, Function.update_self ..⟩ (by simp)))
  | @wake p ht hc hp =>
    subst ht
    exact absurd ⟨hp, by simp⟩ (procer_of_busy hc hok hn).1
  | @wait p ht hc hp | @cancelWait p ha ht hc hp =>
    have halive : (s.procer p).alive := by rcases hp with hp | hp <;> simp [hp, ProcerPc.alive]
    refine .inl (hcalls rfl (queueWork_lt hL halive rfl (by simp) ?_))
    rcases hp with hp | hp <;> simp [hp, ProcerPc.work]
  | @noTable p slot k ht hc hp | @endDispatch p slot k row ht hc hp =>
    refine .inl (hcalls rfl (queueWork_lt (q := p) hL (by simp [hp, ProcerPc.alive]) rfl rfl ?_))
    simp [hp, State.endDispatch, ProcerPc.work, DispatchPc.work]
  | rdlock ht hc hp =>
    refine .inl (hcalls rfl (dispatch_work_lt hL hp rfl rfl (Function.update_self ..) ?_))
    simp [DispatchPc.work]
  | move ht hc hp hm =>
    exact .inl (hcalls rfl (dispatch_work_lt hL hp rfl rfl (Function.update_self ..) (move_work_lt hW.manger hm)))
  | compare ht hc hp hl hrow hm =>
    exact .inl (hcalls rfl
      (dispatch_work_lt hL hp rfl rfl (Function.update_self ..) (compare_work_lt hW.manger hrow hm)))
  | callSuber ht hc hp =>
    refine .inl (hcalls rfl (dispatch_work_lt hL hp rfl rfl (Function.update_self ..) ?_))
    simp [DispatchPc.work]
  | @cbRead p slot k row num ht hc hp =>
    subst ht
    exact absurd ⟨by simp [hp, ProcerPc.isInCb], rfl⟩ (procer_of_busy hc hok hn).2
  | @cancelCb p slot k row num ha ht hc hp =>
    subst ha ht
    simp [busy, State.stopsIdle, hp] at hok
  | halt hh' => exact .inr ⟨rfl, rfl, by simp⟩

end PlatIF.Evt
