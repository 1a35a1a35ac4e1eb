import PlatIF.Ioc.UnsubScan
import PlatIF.Ioc.Slots

/-!
# The result of `unsubEVT`

A call of `unsubEVT` from the step that obtains the context mutex to its return, whatever the other threads do between.

* `During.inv` — what each step of the call keeps holds until it returns: the steps of the others leave what is behind
  the mutex;
* `Searching`, `Clearing` — what the call with a key, and `unsubEVT(NULL)`, have done to the table;
* `unsub_meets_iff` — the call answers truly exactly when the key is there or the table is not, and `unsubEVT(NULL)`
  frees every slot exactly when every slot has its identifiers.
-/

namespace PlatIF.Ioc

variable {abi : Abi} {s s' s₀ s₁ v : State abi} {t u : Tid} {a : Act abi} {i j : ℕ} {f g g' : UnsubFrame}
  {k : EvtUnsubArgs} {r : TosResult} {rest : List (Frame abi)} {ok : State abi → Tid × Act abi → Prop}
  {maxSuberNum : ULong abi} {clients : ℕ}

/-! ### The run of a call -/

/-- A step of any thread during a call of `t` that stands on `n` frames; the return is none. -/
def stepIn (t : Tid) (n : ℕ) (s : State abi) (x : Tid × Act abi) : Option (State abi) :=
  (next s x).bind fun s' => if n < (s'.frames t).length then some s' else none

theorem stepIn_eq_some {n : ℕ} {x : Tid × Act abi} (h : stepIn t n s x = some s') :
    next s x = some s' ∧ n < (s'.frames t).length := by
  obtain ⟨s₁, hn, h⟩ := Option.bind_eq_some_iff.mp h
  split at h
  · rename_i hlt
    obtain rfl := Option.some.inj h
    exact ⟨hn, hlt⟩
  · simp at h

/-- The call of `t` that takes its first step in `s₀` has not returned in `s`. -/
def During (s₀ : State abi) (t : Tid) (n : ℕ) (s : State abi) : Prop :=
  s = s₀ ∨ ∃ a s₁, stepIn t n s₀ (t, a) = some s₁ ∧ Runs.ReachUnder (stepIn t n) (fun _ _ => True) s₁ s

/-- What a step of an `unsubEVT` call does to the table, short of its return. -/
inductive UnsubIn (s s' : State abi) (t : Tid) (g g' : UnsubFrame) : Prop
  | locked (hp : g.pc = .lock) (hp' : g'.pc = .scan 0) (ha : s.ctx.isAlloced = true)
      (hc : s'.ctx.pEvtSubers = s.ctx.pEvtSubers)
  | moved (hp : g.pc ≠ .lock) (hi : g'.pc.idx = g.pc.idx) (hsl : g.pc.slot = none ∨ g'.pc.slot = g.pc.slot)
      (hc : s'.ctx.pEvtSubers = s.ctx.pEvtSubers)
  | skipped {m : ℕ} (hp : g.pc = .scan m) (hp' : g'.pc = .scan (m + 1)) (hno : ¬ g.picks (s.suber m))
      (hc : s'.ctx.pEvtSubers = s.ctx.pEvtSubers)
  | flagged {m : ℕ} (hp : g.pc = .stop m) (hp' : g'.pc = .signal m)
      (hc : s'.ctx.pEvtSubers =
        Function.update s.ctx.pEvtSubers m { s.suber m with shouldExitASyncThread := true })
  | freed {m : ℕ} (hs : s.slotStopped t g m) (hp' : g'.pc = .scan (m + 1)) (hn : g.pEvtUnsubArgs = none)
      (hids : (s.suber m).args.pEvtIDs.isSome = true)
      (hc : s'.ctx.pEvtSubers = Function.update s.ctx.pEvtSubers m (s.suber m).freed)
  | kept {m : ℕ} (hs : s.slotStopped t g m) (hp' : g'.pc = .scan (m + 1)) (hn : g.pEvtUnsubArgs = none)
      (hids : (s.suber m).args.pEvtIDs = none)
      (hc : s'.ctx.pEvtSubers =
        Function.update s.ctx.pEvtSubers m { s.suber m with asyncThreadID := none })

theorem Trans.unsubIn (h : Trans s t a s') (hh : s'.halted = none) (hf : s.frames t = .unsub g :: rest)
    (hlen : rest.length < (s'.frames t).length) :
    ∃ g', s'.frames t = .unsub g' :: rest ∧ g'.pEvtUnsubArgs = g.pEvtUnsubArgs ∧ s'.sid = s.sid ∧
      UnsubIn s s' t g g' := by
  have hw : ∀ {f r}, s.frames t = .unsub f :: r → f = g ∧ r = rest := fun h => by simpa using h.symm.trans hf
  cases h
  case unsubLock hf' hp _ ha =>
    obtain ⟨rfl, rfl⟩ := hw hf'
    exact ⟨_, Function.update_self .., rfl, rfl, .locked hp rfl ha rfl⟩
  case unsubStop hf' hp _ _ _ =>
    obtain ⟨rfl, rfl⟩ := hw hf'
    exact ⟨_, Function.update_self .., rfl, rfl, .moved (by simp [hp]) (by rw [hp]; rfl) (.inl (by rw [hp]; rfl)) rfl⟩
  case unsubSkip hf' hp _ hk =>
    obtain ⟨rfl, rfl⟩ := hw hf'
    exact ⟨_, Function.update_self .., rfl, rfl, .skipped hp rfl hk rfl⟩
  case unsubSetFlag hf' hp _ =>
    obtain ⟨rfl, rfl⟩ := hw hf'
    exact ⟨_, Function.update_self .., rfl, rfl, .flagged hp rfl rfl⟩
  case unsubSignal hf' hp hw' =>
    obtain ⟨rfl, rfl⟩ := hw hf'
    obtain ⟨b, rfl, -⟩ := hw'.eq
    exact ⟨_, Function.update_self .., rfl, rfl, .moved (by simp [hp]) (by rw [hp]; rfl) (.inr (by rw [hp]; rfl)) rfl⟩
  case unsubFreeNext hf' hs hn hids =>
    obtain ⟨rfl, rfl⟩ := hw hf'
    exact ⟨_, Function.update_self .., rfl, rfl, .freed hs rfl hn hids rfl⟩
  case unsubKeepNext hf' hs hn hids =>
    obtain ⟨rfl, rfl⟩ := hw hf'
    exact ⟨_, Function.update_self .., rfl, rfl, .kept hs rfl hn hids rfl⟩
  case unsubNotFound hf' _ _ _ | unsubEnd hf' _ _ | unsubFreeDone hf' _ _ =>
    obtain ⟨rfl, rfl⟩ := hw hf'
    simp at hlen
  case halt | haltPush | haltRetire => simp at hh
  -- the other steps have another frame on top
  all_goals
    clear hw hlen hh
    exfalso
    simp_all [State.userOnTop]

/-- **The invariant rule of a call.**  What its first step sets up, its own steps keep and the others cannot touch
holds as long as the call has not returned. -/
theorem During.inv {P : State abi → UnsubFrame → Prop} (hr₀ : Reach ok maxSuberNum clients s₀)
    (hf₀ : s₀.frames t = .unsub f :: rest) (hp₀ : f.pc = .lock)
    (hfirst : ∀ s g, s₀.ctx.isAlloced = true → g.pc = .scan 0 → s.ctx.pEvtSubers = s₀.ctx.pEvtSubers →
      s.sid = s₀.sid → P s g)
    (hown : ∀ s s' g g', UnsubIn s s' t g g' → s'.sid = s.sid → g.pc ≠ .lock →
      g.pEvtUnsubArgs = f.pEvtUnsubArgs → P s g → P s' g')
    (hothers : ∀ s s' g, SameTable s s' → P s g → P s' g)
    (hD : During s₀ t rest.length s) (hh : s.halted = none) :
    Reach (fun _ _ => True) maxSuberNum clients s ∧
      (s = s₀ ∨ ∃ g, s.frames t = .unsub g :: rest ∧ g.pEvtUnsubArgs = f.pEvtUnsubArgs ∧ g.pc ≠ .lock ∧ P s g) := by
  have hr₁ : Reach (fun _ _ => True) maxSuberNum clients s₀ := hr₀.mono fun _ _ _ => trivial
  rcases hD with rfl | ⟨a, s₁, hn, hrun⟩
  · exact ⟨hr₁, .inl rfl⟩
  obtain ⟨hn₁, hlen₁⟩ := stepIn_eq_some hn
  have hgoal : Reach (fun _ _ => True) maxSuberNum clients s ∧ (s.halted = none →
      ∃ g, s.frames t = .unsub g :: rest ∧ g.pEvtUnsubArgs = f.pEvtUnsubArgs ∧ g.pc ≠ .lock ∧ P s g) := by
    refine hrun.invariant (P := fun s => Reach (fun _ _ => True) maxSuberNum clients s ∧ (s.halted = none →
      ∃ g, s.frames t = .unsub g :: rest ∧ g.pEvtUnsubArgs = f.pEvtUnsubArgs ∧ g.pc ≠ .lock ∧ P s g))
      ⟨hr₁.tail (t, a) trivial hn₁, fun hh₁ => ?first⟩ fun s s' x hs ⟨hr, hP⟩ _ hx => ?step
    case first =>
      obtain ⟨g, hg, he, hsid, hin⟩ := (next_trans hn₁).2.unsubIn hh₁ hf₀ hlen₁
      cases hin with
      | locked _ hp' ha hc => exact ⟨g, hg, he, by simp [hp'], hfirst s₁ g ha hp' hc hsid⟩
      | moved hp => exact absurd hp₀ hp
      | skipped hp | flagged hp => simp [hp₀] at hp
      | freed hs | kept hs => exact absurd hp₀ hs.pc_ne
    case step =>
      obtain ⟨w, b⟩ := x
      obtain ⟨hx, hlen⟩ := stepIn_eq_some hx
      obtain ⟨hh, h⟩ := next_trans hx
      obtain ⟨g, hg, he, hp, hPg⟩ := hP hh
      refine ⟨hr.tail (w, b) trivial hx, fun hh' => ?_⟩
      by_cases hw : t = w
      · subst hw
        obtain ⟨g', hg', he', hsid, hin⟩ := h.unsubIn hh' hg hlen
        refine ⟨g', hg', he'.trans he, ?_, hown s s' g g' hin hsid hp he hPg⟩
        cases hin with
        | locked hp' => exact absurd hp' hp
        | moved _ hi =>
          exact fun hp' => hp (UnsubPc.idx_eq_none.mp (hi.symm.trans (UnsubPc.idx_eq_none.mpr hp')))
        | skipped _ hp' | flagged _ hp' | freed _ hp' | kept _ hp' => simp [hp']
      · have hL := lockInv_reach hr
        exact ⟨g, (h.frames_ne hw).trans hg, he, hp, hothers s s' g (h.sameTable hL hw (hL.unsub_holder hg hp)) hPg⟩
  exact ⟨hgoal.1, .inr (hgoal.2 hh)⟩

/-- The step that returns is the first of the call, or finds what the steps before it kept. -/
theorem Returns.during {P : State abi → UnsubFrame → Prop} (hret : Returns s s' t (.unsub g) r)
    (hf₀ : s₀.frames t = .unsub f :: rest) (hp₀ : f.pc = .lock)
    (hs : s = s₀ ∨ ∃ g, s.frames t = .unsub g :: rest ∧ g.pEvtUnsubArgs = f.pEvtUnsubArgs ∧ g.pc ≠ .lock ∧ P s g) :
    (g.pc = .lock → s = s₀) ∧ (g.pc ≠ .lock → g.pEvtUnsubArgs = f.pEvtUnsubArgs ∧ P s g) := by
  have htop : ∀ {x fs}, s.frames t = .unsub x :: fs → g = x := fun hx => by
    simpa using (List.cons.inj (hret.top.symm.trans hx)).1
  rcases hs with rfl | ⟨g', hg', he, hp, hP⟩
  · exact ⟨fun _ => rfl, fun hp => absurd (htop hf₀ ▸ hp₀) hp⟩
  · obtain rfl := htop hg'
    exact ⟨fun hp' => absurd hp' hp, fun _ => ⟨he, hP⟩⟩

/-! ### The call with a key -/

/-- What the call with a key has done to the table since `s₀`: it has not touched any slot but the one it stops. -/
structure Searching (s₀ s : State abi) (g : UnsubFrame) : Prop where
  alloced : s₀.ctx.isAlloced = true
  args : ∀ j, (s.suber j).args = (s₀.suber j).args
  same : ∀ j, g.pc.slot ≠ some j → SameSlot (s₀.suber j) (s.suber j)
  sid : s.sid = s₀.sid

theorem Searching.of_eq (hS : Searching s₀ s g) (hc : s'.ctx.pEvtSubers = s.ctx.pEvtSubers) (hs : s'.sid = s.sid)
    (hsl : g.pc.slot = none ∨ g'.pc.slot = g.pc.slot) : Searching s₀ s' g' where
  alloced := hS.alloced
  args j := by
    rw [State.suber, hc]
    exact hS.args j
  same j hj := by
    have hslot : s'.suber j = s.suber j := by rw [State.suber, hc]
    rw [hslot]
    refine hS.same j fun hj' => hj ?_
    rcases hsl with h | h
    · simp [h] at hj'
    · rw [h, hj']
  sid := hs.trans hS.sid

theorem searching_own (hk : g.pEvtUnsubArgs = some k) (hS : Searching s₀ s g) (hsid : s'.sid = s.sid)
    (h : UnsubIn s s' t g g') : Searching s₀ s' g' := by
  cases h with
  | locked hp _ _ hc => exact hS.of_eq hc hsid (.inl (by rw [hp]; rfl))
  | moved _ _ hsl hc => exact hS.of_eq hc hsid hsl
  | skipped hp _ _ hc => exact hS.of_eq hc hsid (.inl (by rw [hp]; rfl))
  | @flagged m hp hp' hc =>
    refine ⟨hS.alloced, fun j => ?_, fun j hj => ?_, hsid.trans hS.sid⟩
    · have hslot : (s'.suber j).args = (s.suber j).args := by simp [State.suber, hc, update_args]
      exact hslot.trans (hS.args j)
    · have hjm : j ≠ m := fun h => hj (by rw [hp', h]; rfl)
      have hslot : s'.suber j = s.suber j := by rw [State.suber, hc, Function.update_of_ne hjm]
      rw [hslot]
      refine hS.same j fun h => hjm ?_
      simpa [hp, UnsubPc.slot] using h.symm
  | freed _ _ hn | kept _ _ hn => simp [hk] at hn

/-- The search of a call with a key that has not returned. -/
theorem during_search (hr₀ : Reach ok maxSuberNum clients s₀) (hf₀ : s₀.frames t = .unsub f :: rest)
    (hp₀ : f.pc = .lock) (hk : f.pEvtUnsubArgs = some k) (hD : During s₀ t rest.length s) (hh : s.halted = none) :
    Reach (fun _ _ => True) maxSuberNum clients s ∧
      (s = s₀ ∨ ∃ g, s.frames t = .unsub g :: rest ∧ g.pEvtUnsubArgs = f.pEvtUnsubArgs ∧ g.pc ≠ .lock ∧
        Searching s₀ s g) := by
  refine During.inv (P := Searching s₀) hr₀ hf₀ hp₀ (fun s g ha _ hc hsid => ?_)
    (fun s s' g g' hin hsid _ he hS => ?_) (fun s s' g hT hS => ?_) hD hh
  · have hslot : ∀ j, s.suber j = s₀.suber j := fun j => by rw [State.suber, hc]
    exact ⟨ha, fun j => by rw [hslot], fun j _ => by rw [hslot]; exact .refl _, hsid⟩
  · exact searching_own (he.trans hk) hS hsid hin
  · exact ⟨hS.alloced, fun j => (hT.slot j).args.trans (hS.args j), fun j hj => (hS.same j hj).trans (hT.slot j),
      hT.sid.trans hS.sid⟩

/-- The first slot with the key. -/
def State.FirstKey (s : State abi) (k : EvtUnsubArgs) (i : ℕ) : Prop :=
  (s.suber i).hasKey k ∧ ∀ j, j < i → ¬ (s.suber j).hasKey k

theorem State.FirstKey.unique (hi : s.FirstKey k i) (hj : s.FirstKey k j) : i = j := by
  rcases Nat.lt_trichotomy i j with h | h | h
  · exact absurd hi.1 (hj.2 i h)
  · exact h
  · exact absurd hj.1 (hi.2 j h)

/-- The slot that the call stands at with the key is the first that had it. -/
theorem Searching.firstKey (hS : Searching s₀ s g) (hI : ScanInv s) (hg : s.frames t = .unsub g :: rest)
    (hk : g.pEvtUnsubArgs = some k) (hi : g.pc.idx = some i) (hkey : (s.suber i).hasKey k) : s₀.FirstKey k i :=
  ⟨(Suber.hasKey_congr (hS.args i)).mp hkey, fun j hj hj₀ =>
    hI t g rest k i hg hk hi j hj ((Suber.hasKey_congr (hS.args j)).mpr hj₀)⟩

/-- A step of the call changes no slot but the one it stands at, and that one has the key. -/
theorem Trans.unsub_touch (hH : HolderInv s) (h : Trans s t a s') (hg : s.frames t = .unsub g :: rest)
    (hk : g.pEvtUnsubArgs = some k) (j : ℕ) :
    s'.suber j = s.suber j ∨ g.pc.idx = some j ∧ (s.suber j).hasKey k := by
  have hw : ∀ {f r}, s.frames t = .unsub f :: r → f = g := fun h => by
    have := h.symm.trans hg
    simp only [List.cons.injEq, Frame.unsub.injEq] at this
    exact this.1
  have hone : ∀ {m x}, s'.ctx.pEvtSubers = Function.update s.ctx.pEvtSubers m x → g.pc.idx = some m →
      (s.suber m).hasKey k → s'.suber j = s.suber j ∨ g.pc.idx = some j ∧ (s.suber j).hasKey k := fun {m x} hc hi hkey => by
    by_cases hj : j = m
    · exact .inr ⟨hj ▸ hi, hj ▸ hkey⟩
    · exact .inl (by rw [State.suber, hc, Function.update_of_ne hj])
  cases h
  case unsubSetFlag hf hp _ =>
    obtain rfl := hw hf
    refine hone rfl (by rw [hp]; rfl) ((UnsubFrame.picks_some hk _).mp ?_)
    exact (hH.unsub t _ _ _ hf (by rw [hp]; rfl)).picks
  case unsubFreeDone hf hs _ =>
    obtain rfl := hw hf
    exact hone rfl hs.idx ((UnsubFrame.picks_some hk _).mp (hs.picks hH hf))
  case unsubFreeNext hf _ hn _ | unsubKeepNext hf _ hn _ =>
    obtain rfl := hw hf
    simp [hk] at hn
  case unsubSignal hw' | postSignal hw' | postRetrySignal hw' =>
    obtain ⟨b, rfl, -⟩ := hw'.eq
    exact .inl rfl
  case unsubLock | unsubNotFound | unsubStop | unsubSkip | unsubEnd | halt => exact .inl rfl
  -- the other steps have another frame on top
  all_goals
    clear hw hone
    exfalso
    simp_all [State.userOnTop]

/-- The steps of the call change no slot but the first that had the key. -/
theorem during_touch (hr₀ : Reach ok maxSuberNum clients s₀) (hf₀ : s₀.frames t = .unsub f :: rest)
    (hp₀ : f.pc = .lock) (hk : f.pEvtUnsubArgs = some k) (hD : During s₀ t rest.length s)
    (hn : next s (t, a) = some s') (j : ℕ) : s'.suber j = s.suber j ∨ s₀.FirstKey k j := by
  obtain ⟨hh, h⟩ := next_trans hn
  obtain ⟨hr, rfl | ⟨g, hg, he, -, hS⟩⟩ := during_search hr₀ hf₀ hp₀ hk hD hh
  · rcases h.unsub_touch (holderInv_reach hr) hf₀ hk j with hj | ⟨hi, -⟩
    · exact .inl hj
    · simp [hp₀, UnsubPc.idx] at hi
  · rcases h.unsub_touch (holderInv_reach hr) hg (he.trans hk) j with hj | ⟨hi, hkey⟩
    · exact .inl hj
    · exact .inr (hS.firstKey (scanInv_reach hr) hg (he.trans hk) hi hkey)

/-- The call with a key tells the truth: it succeeds where a subscription had the key, and then frees one such slot and
leaves the others; otherwise it returns `TOS_RESULT_NOT_FOUND` and leaves the table. -/
structure UnsubMeets (s₀ s' : State abi) (t : Tid) (n : ℕ) (k : EvtUnsubArgs) (r : TosResult) : Prop where
  result : r = .success ↔ ∃ i, (s₀.suber i).occupied ∧ (s₀.suber i).hasKey k
  freed : r = .success → ∃ i, (s₀.suber i).occupied ∧ (s₀.suber i).hasKey k ∧ ¬ (s'.suber i).occupied ∧
    (s'.suber i).asyncThreadID = none ∧ ∀ j, j ≠ i →
      SameSlot (s₀.suber j) (s'.suber j) ∧ s'.sid j = s₀.sid j ∧
        ∀ u v a, During s₀ t n u → next u (t, a) = some v → v.suber j = u.suber j
  absent : r ≠ .success → r = .notFound ∧ SameTable s₀ s' ∧
    ∀ u v a, During s₀ t n u → next u (t, a) = some v → ∀ j, v.suber j = u.suber j

theorem UnsubPc.idx_of_slot {p : UnsubPc} (h : p.slot = some i) : p.idx = some i := by
  cases p <;> simp_all [UnsubPc.slot, UnsubPc.idx]

theorem unsub_key_iff (hr₀ : Reach ok maxSuberNum clients s₀) (hf₀ : s₀.frames t = .unsub f :: rest)
    (hp₀ : f.pc = .lock) (hk : f.pEvtUnsubArgs = some k) (hcb : k.cbProcEvtF ≠ NULL)
    (hD : During s₀ t rest.length s) (hn : next s (t, a) = some s') (hret : Returns s s' t (.unsub g) r) :
    UnsubMeets s₀ s' t rest.length k r ↔
      s₀.ctx.isAlloced = false ∨ ∃ i, (s₀.suber i).occupied ∧ (s₀.suber i).hasKey k := by
  obtain ⟨hh, h⟩ := next_trans hn
  obtain ⟨hr, hs⟩ := during_search hr₀ hf₀ hp₀ hk hD hh
  have htouch := fun {u v b} hu hb => @during_touch abi u v s₀ t b f k rest ok maxSuberNum clients hr₀ hf₀ hp₀ hk hu hb
  have hocc : ∀ {x : Suber abi}, x.hasKey k → x.occupied := fun hx => by
    rw [Suber.occupied, hx.1]
    exact hcb
  obtain ⟨hfirst, hsearch⟩ := hret.during hf₀ hp₀ hs
  cases h.unsubRet (holderInv_reach hr) hret with
  | noTable hp ha hres hc hsid hnext =>
    obtain rfl := hfirst hp
    have hno : ∀ i, ¬ (s.suber i).hasKey k := fun i hi => hocc hi (by rw [(allocInv_reach hr).slot ha i]; rfl)
    refine iff_of_true ⟨?_, fun h => by simp [hres] at h, fun _ => ⟨hres, .of_eq hc hsid hnext, ?_⟩⟩ (.inl ha)
    · refine iff_of_false (by simp [hres]) ?_
      rintro ⟨i, -, hi⟩
      exact hno i hi
    · exact fun u v b hu hb j => (htouch hu hb j).resolve_right fun hj => hno j hj.1
  | @freed i k' hk' hst hkey hres hc hsid =>
    obtain ⟨hkg, hS⟩ := hsearch hst.pc_ne
    rw [hk] at hkg
    obtain rfl : k = k' := Option.some.inj (hkg.symm.trans hk')
    have hfirst := hS.firstKey (scanInv_reach hr) hret.top hkg hst.idx hkey
    have hthere : (s₀.suber i).occupied ∧ (s₀.suber i).hasKey k := ⟨hocc hfirst.1, hfirst.1⟩
    refine iff_of_true ⟨iff_of_true hres ⟨i, hthere⟩, fun _ => ⟨i, hthere.1, hthere.2, ?_, ?_, fun j hj => ⟨?_, ?_, ?_⟩⟩,
      fun h => absurd hres h⟩ (.inr ⟨i, hthere⟩)
    · rw [State.suber, hc, Function.update_self]
      exact Suber.freed_occupied _
    · rw [State.suber, hc, Function.update_self]
      rfl
    · have hslot : s'.suber j = s.suber j := by rw [State.suber, hc, Function.update_of_ne hj]
      rw [hslot]
      refine hS.same j fun hsl => hj ?_
      exact Option.some.inj ((UnsubPc.idx_of_slot hsl).symm.trans hst.idx)
    · rw [hsid, hS.sid]
    · exact fun u v b hu hb => (htouch hu hb j).resolve_right fun hj' => hj (hj'.unique hfirst)
  | @ended i hp hi hres hc =>
    obtain ⟨hkg, hS⟩ := hsearch (by simp [hp])
    rw [hk] at hkg
    have hno : ¬ ∃ j, (s₀.suber j).occupied ∧ (s₀.suber j).hasKey k := by
      rintro ⟨j, ho, hj⟩
      have hlt := occupied_lt_reach hr₀ j ho
      rw [← maxSuberNum_reach hr] at hlt
      exact scanInv_reach hr t g _ k i hret.top hkg (by rw [hp]; rfl) j (hlt.trans_le hi)
        ((Suber.hasKey_congr (hS.args j)).mpr hj)
    refine iff_of_false (fun hM => hno (hM.result.mp hres)) ?_
    rintro (ha | h)
    · simp [hS.alloced] at ha
    · exact hno h

/-! ### `unsubEVT(NULL)` -/

/-- What `unsubEVT(NULL)` has done to the table since `s₀` when it has come to slot `i`: it has freed the slots below
that have their identifiers, and left the arguments of the others. -/
structure Clearing (s₀ s : State abi) (i : ℕ) : Prop where
  freed : ∀ j, j < i → (s₀.suber j).args.pEvtIDs ≠ none → ¬ (s.suber j).occupied
  kept : ∀ j, i ≤ j ∨ (s₀.suber j).args.pEvtIDs = none → (s.suber j).args = (s₀.suber j).args

theorem Clearing.of_args (hC : Clearing s₀ s i) (ha : ∀ j, (s'.suber j).args = (s.suber j).args) :
    Clearing s₀ s' i where
  freed j hj hids := by
    rw [Suber.occupied_congr (ha j)]
    exact hC.freed j hj hids
  kept j hj := (ha j).trans (hC.kept j hj)

theorem clearing_own (hn : g.pEvtUnsubArgs = none) (hC : ∀ i, g.pc.idx = some i → Clearing s₀ s i)
    (h : UnsubIn s s' t g g') (hp : g.pc ≠ .lock) (hi : g'.pc.idx = some i) : Clearing s₀ s' i := by
  have hsame : s'.ctx.pEvtSubers = s.ctx.pEvtSubers → ∀ j, (s'.suber j).args = (s.suber j).args := fun hc j => by
    rw [State.suber, hc]
  cases h with
  | locked hp' => exact absurd hp' hp
  | moved _ hi' _ hc => exact (hC i (hi'.symm.trans hi)).of_args (hsame hc)
  | skipped _ _ hno => exact absurd (by simp [UnsubFrame.picks, hn]) hno
  | @flagged m hp' hp'' hc =>
    refine (hC i ?_).of_args fun j => by simp [State.suber, hc, update_args]
    rw [hp'] at *
    rw [hp''] at hi
    exact hi
  | @freed m hs hp' _ hids hc =>
    have hold := hC m hs.idx
    have him : m + 1 = i := by simpa [hp', UnsubPc.idx] using hi
    have hne : ∀ j, j ≠ m → (s'.suber j).args = (s.suber j).args := fun j hj => by
      rw [State.suber, hc, Function.update_of_ne hj]
    refine ⟨fun j hj hj' => ?_, fun j hj => ?_⟩
    · by_cases hjm : j = m
      · subst hjm
        rw [State.suber, hc, Function.update_self]
        exact Suber.freed_occupied _
      · rw [Suber.occupied_congr (hne j hjm)]
        exact hold.freed j (by omega) hj'
    · have hjm : j ≠ m := by
        rintro rfl
        rcases hj with hj | hj
        · omega
        · rw [hold.kept j (.inr hj), hj] at hids
          simp at hids
      rw [hne j hjm]
      exact hold.kept j (hj.imp (by omega) id)
  | @kept m hs hp' _ hids hc =>
    have hargs : ∀ j, (s'.suber j).args = (s.suber j).args := fun j => by simp [State.suber, hc, update_args]
    have hold := (hC m hs.idx).of_args hargs
    have him : m + 1 = i := by simpa [hp', UnsubPc.idx] using hi
    refine ⟨fun j hj hj' => ?_, fun j hj => hold.kept j (hj.imp (by omega) id)⟩
    by_cases hjm : j = m
    · subst hjm
      rw [(hC j hs.idx).kept j (.inl le_rfl)] at hids
      exact absurd hids hj'
    · exact hold.freed j (by omega) hj'

theorem unsub_all_iff (hr₀ : Reach ok maxSuberNum clients s₀) (hf₀ : s₀.frames t = .unsub f :: rest)
    (hp₀ : f.pc = .lock) (hk : f.pEvtUnsubArgs = none) (hD : During s₀ t rest.length s)
    (hn : next s (t, a) = some s') (hret : Returns s s' t (.unsub g) r) :
    (∀ i, (s₀.suber i).occupied → ¬ (s'.suber i).occupied) ↔
      ∀ i, (s₀.suber i).occupied → (s₀.suber i).args.pEvtIDs ≠ none := by
  obtain ⟨hh, h⟩ := next_trans hn
  have hscan : ∀ (s : State abi) (g : UnsubFrame), g.pc = .scan 0 → s.ctx.pEvtSubers = s₀.ctx.pEvtSubers →
      ∀ i, g.pc.idx = some i → Clearing s₀ s i := fun s g hp' hc i hi => by
    obtain rfl : 0 = i := by simpa [hp', UnsubPc.idx] using hi
    exact ⟨fun j hj => absurd hj (Nat.not_lt_zero j), fun j _ => by rw [State.suber, hc]⟩
  obtain ⟨hr, hs⟩ := During.inv (P := fun s g => ∀ i, g.pc.idx = some i → Clearing s₀ s i) hr₀ hf₀ hp₀
    (fun s g _ hp' hc _ => hscan s g hp' hc)
    (fun s s' g g' hin _ hp he hC i hi => clearing_own (he.trans hk) hC hin hp hi)
    (fun s s' g hT hC i hi => (hC i hi).of_args fun j => (hT.slot j).args) hD hh
  obtain ⟨hfirst, hclear⟩ := hret.during
    (P := fun s g => ∀ i, g.pc.idx = some i → Clearing s₀ s i) hf₀ hp₀ hs
  cases h.unsubRet (holderInv_reach hr) hret with
  | noTable hp ha =>
    obtain rfl := hfirst hp
    have hno : ∀ i, ¬ (s.suber i).occupied := fun i => by
      rw [(allocInv_reach hr).slot ha i]
      exact fun ho => ho rfl
    exact iff_of_true (fun i ho => absurd ho (hno i)) fun i ho => absurd ho (hno i)
  | freed hk' hst =>
    obtain ⟨hkg, -⟩ := hclear hst.pc_ne
    simp [hkg, hk] at hk'
  | @ended i hp hi _ hc =>
    have hC := (hclear (by simp [hp])).2 i (by rw [hp]; rfl)
    have hslot : ∀ j, s'.suber j = s.suber j := fun j => by rw [State.suber, hc]
    constructor
    · intro hall j ho hids
      refine hall j ho ?_
      rw [hslot, Suber.occupied_congr (hC.kept j (.inr hids))]
      exact ho
    · intro hids j ho
      have hlt := occupied_lt_reach hr₀ j ho
      rw [← maxSuberNum_reach hr] at hlt
      rw [hslot]
      exact hC.freed j (hlt.trans_le hi) (hids j ho)

/-- **The result of `unsubEVT`.**  A call with a key that has a callback tells the truth exactly when a subscription has
the key or there is no table yet, and `unsubEVT(NULL)` frees every slot that is taken exactly when each of these has its
identifiers. -/
theorem unsub_meets_iff (hr₀ : Reach ok maxSuberNum clients s₀) (hf₀ : s₀.frames t = .unsub f :: rest)
    (hp₀ : f.pc = .lock) (hD : During s₀ t rest.length s) (hn : next s (t, a) = some s')
    (hret : Returns s s' t (.unsub g) r) :
    (∀ k, f.pEvtUnsubArgs = some k → k.cbProcEvtF ≠ NULL → (UnsubMeets s₀ s' t rest.length k r ↔
      s₀.ctx.isAlloced = false ∨ ∃ i, (s₀.suber i).occupied ∧ (s₀.suber i).hasKey k)) ∧
    (f.pEvtUnsubArgs = none → ((∀ i, (s₀.suber i).occupied → ¬ (s'.suber i).occupied) ↔
      ∀ i, (s₀.suber i).occupied → (s₀.suber i).args.pEvtIDs ≠ none)) :=
  ⟨fun _ hk hcb => unsub_key_iff hr₀ hf₀ hp₀ hk hcb hD hn hret, fun hk => unsub_all_iff hr₀ hf₀ hp₀ hk hD hn hret⟩

/-- Of two subscriptions the second is unsubscribed. -/
theorem unsub_meets_second :
    ∃ (s₀ s' : State lp64), (s₀.suber 0).occupied ∧ (s₀.suber 1).occupied ∧ (s₀.suber 1).hasKey ⟨2, 2⟩ ∧
      UnsubMeets s₀ s' 0 0 ⟨2, 2⟩ .success := by
  obtain ⟨s₀, hr, hs⟩ := reach_of_run (fun _ _ => True) (initMaxSuberNum lp64) 1
    [(0, .call (.subEVT ⟨1, 1, some [7]⟩)), (0, .go), (0, .call (.subEVT ⟨2, 2, some [7]⟩)), (0, .go),
      (0, .call (.unsubEVT (some ⟨2, 2⟩)))]
    (fun s₀ => (s₀.onlyUnsub 0).any fun f : UnsubFrame => (stepIn 0 0 s₀ (0, .go)).any fun s₁ : State lp64 =>
      (Runs.runUnder (stepIn 0 0) (fun _ _ => True) [(0, .go)] s₁).any fun s : State lp64 =>
        (s.onlyUnsub 0).any fun _ => (next s (0, .go)).any fun s' : State lp64 =>
          decide ((s₀.suber 0).occupied ∧ (s₀.suber 1).occupied ∧ (s₀.suber 1).hasKey ⟨2, 2⟩ ∧ f.pc = .lock ∧
            f.pEvtUnsubArgs = some ⟨2, 2⟩) && s'.returned 0 .success) (by decide +kernel)
  simp only [Option.any_eq_true, State.onlyUnsub_eq_some, Bool.and_eq_true, decide_eq_true_eq] at hs
  obtain ⟨f, hf, s₁, hn₁, s, hrun, g, hg, s', hn, ⟨h0, h1, hkey, hp, hk⟩, hret⟩ := hs
  have hD : During s₀ 0 0 s := .inr ⟨_, s₁, hn₁, Runs.runUnder_reach hrun⟩
  exact ⟨s₀, s', h0, h1, hkey, ((unsub_meets_iff hr hf hp hD hn (returns_of_returned hg rfl hret)).1 ⟨2, 2⟩ hk
    (by decide)).mpr (.inr ⟨1, h1, hkey⟩)⟩

/-- A pair that nobody has subscribed is unsubscribed with success, and a subscription whose `malloc` failed survives
`unsubEVT(NULL)`. -/
theorem unsub_untrue :
    (∃ (s₀ s s' : State lp64) (f g : UnsubFrame), Reach (fun _ _ => True) (initMaxSuberNum lp64) 1 s₀ ∧
      s₀.frames 0 = [.unsub f] ∧ f.pc = .lock ∧ f.pEvtUnsubArgs = some ⟨2, 2⟩ ∧ During s₀ 0 0 s ∧
      next s (0, .go) = some s' ∧ Returns s s' 0 (.unsub g) .success ∧
      ¬ ∃ i, (s₀.suber i).occupied ∧ (s₀.suber i).hasKey ⟨2, 2⟩) ∧
    ∃ (s₀ s s' : State lp64) (f g : UnsubFrame), Reach (fun _ _ => True) (initMaxSuberNum lp64) 1 s₀ ∧
      s₀.frames 0 = [.unsub f] ∧ f.pc = .lock ∧ f.pEvtUnsubArgs = none ∧ During s₀ 0 0 s ∧
      next s (0, .go) = some s' ∧ Returns s s' 0 (.unsub g) .success ∧ (s₀.suber 0).occupied ∧
      (s'.suber 0).occupied := by
  constructor
  · obtain ⟨s₀, hr, hs⟩ := reach_of_run (fun _ _ => True) (initMaxSuberNum lp64) 1
      [(0, .call (.subEVT ⟨1, 1, some [7]⟩)), (0, .go), (0, .call (.unsubEVT (some ⟨2, 2⟩)))]
      (fun s₀ => (s₀.onlyUnsub 0).any fun f : UnsubFrame => (stepIn 0 0 s₀ (0, .go)).any fun s₁ : State lp64 =>
        (Runs.runUnder (stepIn 0 0) (fun _ _ => True) (List.replicate 32 (0, .go)) s₁).any fun s : State lp64 =>
          (s.onlyUnsub 0).any fun _ => (next s (0, .go)).any fun s' : State lp64 =>
            decide ((∀ i : ℕ, i < 32 → ¬ (s₀.suber i).hasKey ⟨2, 2⟩) ∧ f.pc = .lock ∧
              f.pEvtUnsubArgs = some ⟨2, 2⟩) && s'.returned 0 .success) (by decide +kernel)
    simp only [Option.any_eq_true, State.onlyUnsub_eq_some, Bool.and_eq_true, decide_eq_true_eq] at hs
    obtain ⟨f, hf, s₁, hn₁, s, hrun, g, hg, s', hn, ⟨hno, hp, hk⟩, hret⟩ := hs
    refine ⟨s₀, s, s', f, g, hr, hf, hp, hk, .inr ⟨_, s₁, hn₁, Runs.runUnder_reach hrun⟩, hn,
      returns_of_returned hg rfl hret, ?_⟩
    rintro ⟨i, ho, hi⟩
    exact hno i (occupied_lt_reach hr i ho) hi
  · obtain ⟨s₀, hr, hs⟩ := reach_of_run (fun _ _ => True) (initMaxSuberNum lp64) 1
      [(0, .call (.subEVT ⟨1, 1, some [7]⟩)), (0, .run { malloc := false }), (0, .call (.unsubEVT none))]
      (fun s₀ => (s₀.onlyUnsub 0).any fun f : UnsubFrame => (stepIn 0 0 s₀ (0, .go)).any fun s₁ : State lp64 =>
        (Runs.runUnder (stepIn 0 0) (fun _ _ => True) (List.replicate 32 (0, .go)) s₁).any fun s : State lp64 =>
          (s.onlyUnsub 0).any fun _ => (next s (0, .go)).any fun s' : State lp64 =>
            decide ((s₀.suber 0).occupied ∧ (s'.suber 0).occupied ∧ f.pc = .lock ∧ f.pEvtUnsubArgs = none) &&
              s'.returned 0 .success) (by decide +kernel)
    simp only [Option.any_eq_true, State.onlyUnsub_eq_some, Bool.and_eq_true, decide_eq_true_eq] at hs
    obtain ⟨f, hf, s₁, hn₁, s, hrun, g, hg, s', hn, ⟨ho, ho', hp, hk⟩, hret⟩ := hs
    exact ⟨s₀, s, s', f, g, hr, hf, hp, hk, .inr ⟨_, s₁, hn₁, Runs.runUnder_reach hrun⟩, hn,
      returns_of_returned hg rfl hret, ho, ho'⟩

end PlatIF.Ioc
