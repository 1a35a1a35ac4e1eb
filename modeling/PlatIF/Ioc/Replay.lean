import PlatIF.Ioc.Cache
import PlatIF.Ioc.FanOut

/-!
# Replays of cached events

An event that `postEVT` has cached is replayed by the drain loop until a replay returns `SUCCESS`, and is then
retired.  A replay is a whole fan-out with one result, so it is complete when its matching subscriptions agree:
all of their queues have room, or all of them are full.

* `copyInv_reach` — when all replays are like that, a failed replay has pushed nothing and a successful one has
  pushed the event into the queue of every matching subscription;
* `replay_once` — so a retired event was pushed once into the queue of each subscription that was there when it
  was cached and still is;
* `replay_skips` — a replay that is not like that loses the event for one subscription.
-/

namespace PlatIF.Ioc

variable {abi : Abi} {s s' : State abi} {t u : Tid} {a : Act abi} {i g k x : ℕ} {d : EvtDesc abi} {p : CachedPtr abi}
  {f f' : PostFrame abi} {rest : List (Frame abi)} {ok : State abi → Tid × Act abi → Prop}
  {maxSuberNum : ULong abi} {clients : ℕ}

/-! ### The copies of one cached event -/

/-- What a log entry does to the events that the replays of `t` have pushed for subscription `x`. -/
def replayedStep (x : ℕ) (t : Tid) (ds : List (EvtDesc abi)) : Obs abi → List (EvtDesc abi)
  | .accept g u true d => if g = x ∧ u = t then ds ++ [d] else ds
  | .retire _ u => if u = t then [] else ds
  | _ => ds

/-- The events that the replays of `t` have pushed for subscription `x` since `t` last retired an entry. -/
def replayed (x : ℕ) (t : Tid) (log : List (Obs abi)) : List (EvtDesc abi) :=
  log.foldl (replayedStep x t) []

theorem replayed_flow (x : ℕ) (t : Tid) (log : List (Obs abi)) :
    replayed x t log = replayed x t (flow log) := by
  rw [replayed, replayed, flow, List.foldl_filter]
  congr 1
  funext ds o
  cases o <;> rfl

theorem replayed_of_flow {l l' os : List (Obs abi)} (h : flow l' = flow l ++ os) :
    replayed x t l' = os.foldl (replayedStep x t) (replayed x t l) := by
  rw [replayed_flow, h, replayed_flow x t l, replayed, List.foldl_append]
  rfl

theorem replayed_same {l l' : List (Obs abi)} (h : flow l' = flow l) :
    replayed x t l' = replayed x t l := by
  rw [replayed_flow, h, ← replayed_flow]

/-- A step of another thread. -/
theorem Effect.replayed_ne (h : Effect s s' t) (hu : u ≠ t) : replayed x u s'.log = replayed x u s.log := by
  cases h
  case quiet h | flagged h | freed h | kept h | started h => exact replayed_same h.flow
  case filled hl _ => exact replayed_same hl
  case took hl _ => exact replayed_same hl
  case accepted f _ _ _ _ _ _ _ _ _ _ hl _ =>
    rw [replayed_of_flow hl]
    cases f.isReplay <;> simp [replayedStep, hu.symm]
  case called hl _ | stored hl _ | retired hl _ =>
    rw [replayed_of_flow hl]
    simp [replayedStep, hu.symm]

/-- A step of a thread that works on no entry. -/
theorem Effect.replayed_idle (hT : ThreadInv s) (h : Effect s s' t) (he : (s.base t).entry = none) :
    replayed x t s'.log = replayed x t s.log := by
  cases h
  case quiet h | flagged h | freed h | kept h | started h => exact replayed_same h.flow
  case filled hl _ => exact replayed_same hl
  case took hl _ => exact replayed_same hl
  case accepted f _ _ hf _ _ _ _ _ _ _ hl _ =>
    have hS := hT.stack t
    rw [hf] at hS
    obtain ⟨-, ⟨hr, -⟩ | ⟨-, -, j, g, p, hb, -⟩⟩ := hS.of_post
    · rw [replayed_of_flow hl, hr]
      rfl
    · simp [hb, Base.entry] at he
  case called hl _ | stored hl _ =>
    rw [replayed_of_flow hl]
    rfl
  case retired hb _ _ _ _ _ _ => simp [hb, Base.entry] at he

/-! ### Replays that agree -/

/-- The step is not that of a replay that finds one matching queue full and another one with room. -/
def replayUniform (s : State abi) (x : Tid × Act abi) : Bool :=
  match s.frames x.1 with
  | .post f :: _ =>
    match f.pc with
    | .push i => !f.isReplay || f.visits.all fun v => v.2 == .queue (s.suber i).evtQueue.hasRoom
    | _ => true
  | _ => true

/-- The step does not drop a cached event that may be dropped and whose replay was refused. -/
def keepsMayDrop (s : State abi) (x : Tid × Act abi) : Bool :=
  match s.base x.1 with
  | .async i _ (.drained p r) => r = .success || !((s.suber i).evtCached.cells p.cell).mayDrop
  | _ => true

/-- The three conditions under which cached events are replayed as they should. -/
def replayOk (s : State abi) (x : Tid × Act abi) : Prop :=
  noReuse s x = true ∧ replayUniform s x = true ∧ keepsMayDrop s x = true

instance (s : State abi) (x : Tid × Act abi) : Decidable (replayOk s x) :=
  inferInstanceAs (Decidable (_ ∧ _))

/-! ### The steps of a replay -/

/-- How a replay came to be as it is after a step of its thread. -/
inductive ReplayStep (s s' : State abi) (t : Tid) (f' : PostFrame abi) : Prop
  | begun (hb : (s.base t).entry = none) (hv : f'.visits = []) (hl : flow s'.log = flow s.log)
  | moved {f : PostFrame abi} (hf : s.frames t = [.post f]) (hr : f.isReplay = true) (hd : f'.pEvtDesc = f.pEvtDesc)
      (hv : f'.visits = f.visits) (hs : s'.sid = s.sid) (hl : flow s'.log = flow s.log)
  | visited {f : PostFrame abi} {j : ℕ} {b : Bool} (hf : s.frames t = [.post f]) (hr : f.isReplay = true)
      (hp : f.pc = .push j) (hd : f'.pEvtDesc = f.pEvtDesc) (hb : (s.suber j).evtQueue.hasRoom = b)
      (hv : f'.visits = f.visits ++ [(j, .queue b)]) (hs : s'.sid = s.sid)
      (hl : flow s'.log = flow s.log ++ if b then [.accept (s.sid j) t true f.pEvtDesc] else [])

theorem Trans.replayStep (hT : ThreadInv s) (hD : ∀ f rest, s.frames t = .post f :: rest → s.desc t f = f.pEvtDesc)
    (hK : ∀ p, .post p ∈ s.frames t → p.Kind s.ctx.isSyncMode)
    (hy : s.ctx.isSyncMode = false) (h : Trans s t a s') (hh : s'.halted = none)
    (hf' : s'.frames t = [.post f']) (hr' : f'.isReplay = true) : ReplayStep s s' t f' := by
  have hS := hT.stack t
  cases h
  case call api _ =>
    simp only [State.setFrames, Function.update_self, List.cons.injEq] at hf'
    obtain ⟨hf', -⟩ := hf'
    cases api <;> simp only [State.frameOf, Frame.post.injEq, reduceCtorEq] at hf'
    simp [← hf'] at hr'
  case asyncReplay hb _ =>
    simp only [State.setFrames, State.setBase, Function.update_self, List.cons.injEq, Frame.post.injEq,
      and_true] at hf'
    exact .begun (by rw [hb]; rfl) (by rw [← hf']) rfl
  case cbRetPost r hf hp =>
    -- a replay is ASYNC, so it calls no callback
    simp only [State.setFrames, State.obs, Function.update_self, List.cons.injEq, Frame.post.injEq] at hf'
    obtain ⟨rfl, rfl⟩ := hf'
    rw [hf] at hS
    have hk := (hK _ (hf ▸ List.mem_cons_of_mem _ List.mem_cons_self)).inCb _ hp
    cases hS.of_cb with
    | sync _ _ hr _ => simp [hr] at hr'
    | replay _ _ _ _ _ ho => simp [hy, ho] at hk
  case postLock hf hp _ _ | postSkip hf hp _ _ | postASync hf hp _ _ _ | postRetry hf hp _ _ _ _ =>
    simp only [State.setFrames, Function.update_self, List.cons.injEq, Frame.post.injEq] at hf'
    obtain ⟨rfl, rfl⟩ := hf'
    exact .moved hf hr' rfl rfl (by simp [withThread_sid]) (by simp)
  case postSignal hf hp hw | postRetrySignal hf hp hw =>
    obtain ⟨b, rfl, -⟩ := hw.eq
    simp only [State.setFrames, Function.update_self, List.cons.injEq, Frame.post.injEq] at hf'
    obtain ⟨rfl, rfl⟩ := hf'
    exact .moved hf hr' rfl rfl rfl rfl
  case postAccept g _ _ hf hp _ hroom =>
    simp only [State.setFrames, State.obs, Function.update_self, List.cons.injEq, Frame.post.injEq] at hf'
    obtain ⟨rfl, rfl⟩ := hf'
    have hg : g.isReplay = true := hr'
    exact .visited hf hr' hp rfl hroom rfl (by simp [withThread_sid]) (by simp [flow, Obs.isFlow, hg, hD g _ hf])
  case postFull hf hp _ hroom _ =>
    simp only [State.setFrames, Function.update_self, List.cons.injEq, Frame.post.injEq] at hf'
    obtain ⟨rfl, rfl⟩ := hf'
    exact .visited hf hr' hp rfl hroom rfl (by simp [withThread_sid]) (by simp)
  case halt | haltPush => simp at hh
  case subFull hf _ _ | subNoSlot hf _ _ _ _ | subFill hf _ _ _ | unsubNotFound hf _ _ _ |
      unsubEnd hf _ _ | unsubFreeDone hf _ _ | postNotFound hf _ _ _ | postBusy hf _ _ _ |
      postCache hf _ _ _ _ _ _ | postCacheFull hf _ _ _ _ _ _ | postEnd hf _ _ =>
    simp at hf'
    rw [hf, hf'] at hS
    exact absurd (hS.below_api rfl) (by simp [Frame.isApi])
  all_goals simp_all

/-- A rule for what holds of every replay: it is ASYNC, so it calls no callback and finds the subscriptions that it has
locked. -/
theorem replay_step {P : PostFrame abi → Prop} (hK : KeptInv false s) (hS : Stack (s.base t) (s.frames t))
    (hD : ∀ f rest, s.frames t = .post f :: rest → s.desc t f = f.pEvtDesc)
    (hV : ∀ p, .post p ∈ s.frames t → p.Kind s.ctx.isSyncMode) (hy : s.ctx.isSyncMode = false)
    (hP : ∀ p, .post p ∈ s.frames t → p.isReplay = true → P p) (h : Trans s t a s')
    (fresh : ∀ p : PostFrame abi, p.pc = .lock → p.visits = [] → P p)
    (locked : ∀ f rest, s.frames t = .post f :: rest → f.isReplay = true → P f → f.pc = .lock →
      P { f with pc := .loop 0, table := s.ctx.pEvtSubers })
    (skip : ∀ f i ds, P f → f.pc = .loop i → i < s.ctx.maxSuberNum.toNat → f.lists i = false →
      P { f with pc := .loop (i + 1), tested := ds })
    (enter : ∀ f i ds, P f → f.pc = .loop i → P { f with pc := .push i, tested := ds })
    (accept : ∀ f rest i, s.frames t = .post f :: rest → f.isReplay = true → P f → f.pc = .push i →
      (s.suber i).evtQueue.hasRoom = true →
      (∀ j, j < s.ctx.maxSuberNum.toNat → (s.suber j).args.lists f.pEvtDesc = f.lists j) →
      P { f with pc := .signal i, result := .success, visits := f.visits ++ [(i, .queue true)] })
    (full : ∀ f rest i, s.frames t = .post f :: rest → f.isReplay = true → P f → f.pc = .push i →
      (s.suber i).evtQueue.hasRoom = false →
      (∀ j, j < s.ctx.maxSuberNum.toNat → (s.suber j).args.lists f.pEvtDesc = f.lists j) →
      P { f with pc := .loop (i + 1), result := .timeout, isCbProcEvtFound := true,
                 visits := f.visits ++ [(i, .queue false)] })
    (retry : ∀ f i pc, P f → (f.pc = .push i ∧ pc = .retry i ∨ f.pc = .retry i ∧ pc = .push i) → P { f with pc := pc })
    (signal : ∀ f i, P f → f.pc = .signal i → P { f with pc := .loop (i + 1), isCbProcEvtFound := true }) :
    ∀ p, .post p ∈ s'.frames t → p.isReplay = true → P p := by
  have hopt : ∀ {f rest}, s.frames t = .post f :: rest → f.isReplay = true → f.pOptions = some optNonBlock :=
    fun hf hr => (hf ▸ hS).replay_options hr
  have hlist : ∀ {f rest}, s.frames t = .post f :: rest → f.isReplay = true → f.pc ≠ .lock →
      ∀ j, j < s.ctx.maxSuberNum.toNat → (s.suber j).args.lists f.pEvtDesc = f.lists j :=
    fun hf hr hp j hj => hK.lists hf hp (by simp [State.isSync, hopt hf hr, hy]) hj
  refine post_step hP h ?fresh ?locked ?skip ?enter ?wrote ?returned ?accept ?full ?retry ?signal
  case fresh => exact fun p hp hv _ _ _ => fresh p hp hv
  case locked => exact fun f rest hf hold hp (hr : f.isReplay = true) => locked f rest hf hr (hold hr) hp
  case skip =>
    intro f rest i hf hold hp hi hl (hr : f.isReplay = true)
    rw [hD f rest hf] at hl
    exact skip f i _ (hold hr) hp hi ((hlist hf hr (by simp [hp]) i hi).symm.trans hl)
  case enter =>
    intro f rest i pc hf hold hp _ _ hpc (hr : f.isReplay = true)
    rcases hpc with ⟨-, hs⟩ | ⟨rfl, -⟩
    · simp [State.isSync, hopt hf hr, hy] at hs
    · exact enter f i _ (hold hr) hp
  case wrote => exact fun c p rest i d _ _ _ hr _ (hr' : p.isReplay = true) => by simp [hr] at hr'
  case returned =>
    intro c p rest i r hf _ hp (hr : p.isReplay = true)
    have hk := (hV p (by simp [hf])).inCb i hp
    rw [hf] at hS
    cases hS.of_cb with
    | sync _ _ hr' _ => simp [hr] at hr'
    | replay _ _ _ _ _ ho => simp [hy, ho] at hk
  case accept =>
    exact fun f rest i hf hold hp hroom (hr : f.isReplay = true) =>
      accept f rest i hf hr (hold hr) hp hroom (hlist hf hr (by simp [hp]))
  case full =>
    exact fun f rest i hf hold hp hroom _ (hr : f.isReplay = true) =>
      full f rest i hf hr (hold hr) hp hroom (hlist hf hr (by simp [hp]))
  case retry => exact fun f rest i pc _ hold hpc (hr : f.isReplay = true) => retry f i pc (hold hr) hpc
  case signal => exact fun f rest i _ hold hp (hr : f.isReplay = true) => signal f i (hold hr) hp

/-- How the drain loop came to have the result of a replay. -/
theorem Trans.drained_self (hT : ThreadInv s) (h : Trans s t a s') (hh : s'.halted = none) {r : TosResult}
    (hb' : s'.base t = .async i g (.drained p r)) :
    ∃ f, s.frames t = [.post f] ∧ f.isReplay = true ∧ f.pEvtDesc = p.desc ∧ f.pOptions = some optNonBlock ∧
      s.base t = .async i g (.replay p) ∧ flow s'.log = flow s.log ∧ s'.sid = s.sid ∧
      s'.ctx.pEvtSubers = s.ctx.pEvtSubers ∧
      (f.pc = .lock ∧ r ≠ .success ∨ ∃ k, f.pc = .loop k ∧ ¬ k < s.ctx.maxSuberNum.toNat ∧ r = f.value) := by
  have hS := hT.stack t
  -- the thread has no call in progress, so only the drain loop itself can go on
  have hstay : s.frames t ≠ [] → s.base t ≠ .async i g (.drained p r) := fun hne hb => by
    rw [hb] at hS
    exact hne (hS.of_idle trivial)
  have hret : ∀ {f rest} {s₁ : State abi} {r'}, s.frames t = .post f :: rest →
      (s₁.retPost t f rest r').base t = .async i g (.drained p r) → s₁.base = s.base →
      rest = [] ∧ f.isReplay = true ∧ f.pEvtDesc = p.desc ∧ f.pOptions = some optNonBlock ∧
        s.base t = .async i g (.replay p) ∧ r = r' := fun {f rest s₁ r'} hf hb hs => by
    rw [hf] at hS
    obtain ⟨-, ⟨hp, -⟩ | ⟨hp, rfl, j, g', q, hj, hd, ho⟩⟩ := hS.of_post
    · rcases State.retPost_base_self s₁ t f rest r' with h' | ⟨-, -, -, hp', -⟩
      · rw [h', hs] at hb
        exact absurd hb (hstay (by simp [hf]))
      · simp [hp] at hp'
    · simp only [State.retPost, hp, if_true, hs, hj, State.setBase, Function.update_self, Base.async.injEq,
        AsyncPc.drained.injEq] at hb
      obtain ⟨rfl, rfl, rfl, rfl⟩ := hb
      exact ⟨rfl, hp, hd, ho, hj, rfl⟩
  cases h
  case postNotFound hf hp _ _ | postBusy hf hp _ _ =>
    obtain ⟨rfl, hr, hd, ho, hb, rfl⟩ := hret hf hb' rfl
    exact ⟨_, hf, hr, hd, ho, hb, by simp [flow, Obs.isFlow], by simp, by simp, .inl ⟨hp, by simp⟩⟩
  case postCacheFull hf hp _ ho' _ _ _ | postCache hf hp _ ho' _ _ _ =>
    obtain ⟨-, -, -, ho, -⟩ := hret hf hb' rfl
    rw [ho, isNonBlock_optNonBlock] at ho'
    simp at ho'
  case postEnd hf hp hi =>
    obtain ⟨rfl, hr, hd, ho, hb, rfl⟩ := hret hf hb' rfl
    exact ⟨_, hf, hr, hd, ho, hb, by simp [flow, Obs.isFlow], by simp, by simp, .inr ⟨_, hp, hi, rfl⟩⟩
  case unsubSignal hf _ hw | postSignal hf _ hw | postRetrySignal hf _ hw =>
    exact absurd ((hw.base_self hS (by simp [hf])).symm.trans hb') (hstay (by simp [hf]))
  case postAccept hf _ _ _ | postFull hf _ _ _ _ | postRetry hf _ _ _ _ _ =>
    have hb := State.withThread_base_self (i := ‹_›) (hT.ne_nextTid (t := t) (by simp [hf]))
    exact absurd (hb.symm.trans (by simpa using hb')) (hstay (by simp [hf]))
  case halt | haltPush | haltRetire => simp at hh
  case call hu =>
    rcases hu with ⟨-, hb⟩ | ⟨f, rest, hf⟩
    · simp [hb] at hb'
    · exact absurd hb' (hstay (by simp [hf]))
  case asyncStart | asyncExit | asyncWait | asyncTake | asyncWake | asyncCall | asyncDrain | asyncTop |
      asyncReplay | asyncRetire | asyncRedo | cbRetAsync => simp at hb'
  all_goals exact absurd hb' (hstay (by simp [*]))

/-- A cached event was stored before the next subscription. -/
theorem stores_le_reach (h : Reach ok maxSuberNum clients s) :
    ∀ g y, y ∈ stores g s.log → y.1 ≤ s.nextSid :=
  h.induction (P := fun s => ∀ g y, y ∈ stores g s.log → y.1 ≤ s.nextSid) (by simp [State.init, stores])
    fun s s' t _ hr hP _ _ h g y hy => by
      have he := h.effect (threadInv_reach hr) (allocInv_reach hr)
      have hold : y ∈ stores g s.log → y.1 ≤ s'.nextSid := fun hy => (hP g y hy).trans he.nextSid_le
      have hsame : flow s'.log = flow s.log → y.1 ≤ s'.nextSid := fun hl => by
        have hs : stores g s'.log = stores g s.log := congrArg Ledger.stores (ledger_same hl g)
        exact hold (hs ▸ hy)
      cases he
      case stored k _ _ _ _ _ _ _ hn hl _ =>
        rw [stores_of_flow hl, List.mem_append] at hy
        rcases hy with hy | hy
        · exact hold hy
        · by_cases hg : s.sid k = g
          · simp only [stores, hg, if_true, List.filterMap, List.mem_singleton] at hy
            rw [hy, hn]
          · simp [stores, hg] at hy
      case accepted hl _ | called hl _ | retired hl _ =>
        rw [stores_of_flow hl] at hy
        exact hold (by simpa [stores] using hy)
      case quiet h | flagged h | freed h | kept h | started h => exact hsame h.flow
      case filled hl _ | took hl _ => exact hsame hl

/-! ### Every replay is all or nothing -/

/-- What a replay in progress has pushed: all its visits agree, and the ones that found room pushed its event. -/
structure PostFrame.Copied (s : State abi) (t : Tid) (f : PostFrame abi) : Prop where
  uniform : ∀ v ∈ f.visits, ∀ w ∈ f.visits, v.2 = w.2
  once : ∀ j, (j, .queue true) ∈ f.visits → replayed (s.sid j) t s.log = [f.pEvtDesc]
  none : ∀ x, (∀ j, (j, .queue true) ∈ f.visits → s.sid j ≠ x) → replayed x t s.log = []

/-- What the replays of a thread have pushed, by the program point of its drain loop. -/
structure CopyOk (s : State abi) (u : Tid) : Prop where
  quiet : ∀ x, (s.base u).entry = none → replayed x u s.log = []
  call : ∀ f, s.frames u = [.post f] → f.isReplay = true → f.Copied s u
  success : ∀ i g p n, s.base u = .async i g (.drained p .success) →
    (stores (s.sid i) s.log)[(retires (s.sid i) s.log).length]? = some (n, p.desc) →
    ∀ j, (s.suber j).occupied → s.sid j < n → (s.suber j).args.lists p.desc = true →
      replayed (s.sid j) u s.log = [p.desc]
  failed : ∀ i g p r, s.base u = .async i g (.drained p r) → r ≠ .success →
    ∀ x, replayed x u s.log = []

/-- The replays of every thread are all or nothing. -/
def CopyInv (s : State abi) : Prop := s.halted = none → ∀ u, CopyOk s u

/-- A fan-out whose visits agree returns `SUCCESS` exactly when it pushed the event. -/
theorem fanOutResult_uniform {vs : List (ℕ × Visit)} (hk : ∀ v ∈ vs, v.2.isCallback = false)
    (hu : ∀ v ∈ vs, ∀ w ∈ vs, v.2 = w.2) :
    fanOutResult vs = .success ↔ vs ≠ [] ∧ ∀ v ∈ vs, v.2 = .queue true := by
  unfold fanOutResult
  cases hl : vs.getLast? with
  | none => simp [List.getLast?_eq_none_iff.mp hl]
  | some w =>
    have hw := List.mem_of_getLast? hl
    have hres : w.2.outcome = .success ↔ w.2 = .queue true := by
      have := hk w hw
      cases hv : w.2 with
      | queue b => cases b <;> simp [Visit.outcome]
      | callback r => simp [hv, Visit.isCallback] at this
    exact hres.trans ⟨fun h => ⟨List.ne_nil_of_mem hw, fun v hv => (hu v hv w hw).trans h⟩, fun h => h.2 w hw⟩

/-- The entry of a thread that does not move stays where it was. -/
theorem drained_index (hr : Reach ok maxSuberNum clients s) (hok : ∀ s x, ok s x → noReuse s x = true)
    (ha : noReuse s (t, a) = true) (hh : s.halted = none) (h : Trans s t a s') (hh' : s'.halted = none)
    (hb : (s.base u).entry = some (i, p)) (hb' : (s'.base u).entry = some (i, p)) {y : ℕ × EvtDesc abi}
    (hy : (stores (s'.sid i) s'.log)[(retires (s'.sid i) s'.log).length]? = some y) :
    (stores (s.sid i) s.log)[(retires (s.sid i) s.log).length]? = some y := by
  obtain ⟨n, hn⟩ := ((cache_reach hok hr).2 hh u i p hb).head
  have hn' := entry_index (threadInv_reach hr) (allocInv_reach hr) (holderInv_reach hr) (slotInv_reach hr)
    (ownInv_reach hok hr) ha h hh' hb hb' hn
  exact hn.trans (hn'.symm.trans hy)

/-- The steps of the others leave the replays of a thread as they are. -/
theorem copyOk_ne (hr : Reach ok maxSuberNum clients s) (hok : ∀ s x, ok s x → noReuse s x = true)
    (ha : noReuse s (t, a) = true) (hh : s.halted = none) (h : Trans s t a s') (hh' : s'.halted = none)
    (hu : u ≠ t) (hC : CopyOk s u) : CopyOk s' u := by
  have hT := threadInv_reach hr
  have hL := lockInv_reach hr
  have he := h.effect hT (allocInv_reach hr)
  have hlog : ∀ x, replayed x u s'.log = replayed x u s.log := fun x => he.replayed_ne hu
  have hbase : ∀ {i g p r}, s'.base u = .async i g (.drained p r) → s.base u = .async i g (.drained p r) :=
    fun {i g p r} hb => by
      cases h.base_ne hu with
      | same h => rwa [h] at hb
      | created _ _ _ _ h => simp [h] at hb
      | woken _ h => simp [h] at hb
  refine ⟨fun x hb => ?quiet, fun f hf hrep => ?call, fun i g p n hb hn j ho hlt hl => ?success,
    fun i g p r hb hne x => ?failed⟩
  case quiet =>
    rw [hlog]
    refine hC.quiet x ?_
    cases h.base_ne hu with
    | same h => rwa [h] at hb
    | created hn _ _ _ _ => rw [(hT.fresh u hn.ge).1]; rfl
    | woken h _ => rw [h]; rfl
  case call =>
    rw [h.frames_ne hu] at hf
    obtain ⟨huni, honce, hnone⟩ := hC.call f hf hrep
    by_cases hp : f.pc = .lock
    · have hS := sound_reach hr u f (by simp [hf])
      simp only [PostFrame.Sound, hp] at hS
      rw [hS.1] at hnone
      exact ⟨huni, by simp [hS.1], fun x _ => by rw [hlog]; exact hnone x (by simp)⟩
    · have hs := (h.sameTable hL hu (hL.post_holder hf hp)).sid
      exact ⟨huni, fun j hj => by rw [hs, hlog]; exact honce j hj,
        fun x hx => by rw [hlog]; exact hnone x (hs ▸ hx)⟩
  case success =>
    have hb₀ := hbase hb
    have hn₀ := drained_index hr hok ha hh h hh' (by rw [hb₀]; rfl) (by rw [hb]; rfl) hn
    have hle := stores_le_reach hr _ _ (List.mem_of_getElem? hn₀)
    rcases he.live ho with ⟨hs, -⟩ | ⟨hs, ho₀, hargs⟩
    · omega
    · rw [hlog, hs]
      exact hC.success i g p n hb₀ hn₀ j ho₀ (hs ▸ hlt) (hargs ▸ hl)
  case failed =>
    rw [hlog]
    exact hC.failed i g p r (hbase hb) hne x

/-- A replay that goes on to its next subscription. -/
theorem copied_next (hI : SlotInv s) (hH : HolderInv s)
    (hV : ∀ p, .post p ∈ s.frames t → p.Sound)
    (hC : CopyOk s t) (ha : replayUniform s (t, a) = true) (h : ReplayStep s s' t f') : f'.Copied s' t := by
  cases h with
  | begun hb hv hl =>
    refine ⟨by simp [hv], by simp [hv], fun x _ => ?_⟩
    rw [replayed_same hl]
    exact hC.quiet x hb
  | @moved f hf hr hd hv hs hl =>
    obtain ⟨huni, honce, hnone⟩ := hC.call f hf hr
    refine ⟨hv ▸ huni, fun j hj => ?_, fun x hx => ?_⟩
    · rw [replayed_same hl, hs, hd]
      exact honce j (hv ▸ hj)
    · rw [replayed_same hl]
      exact hnone x fun j hj => hs ▸ hx j (hv ▸ hj)
  | @visited f i b hf hr hp hd hb hv hs hl =>
    obtain ⟨huni, honce, hnone⟩ := hC.call f hf hr
    simp only [replayUniform, hf, hp, hr, hb, Bool.not_true, Bool.false_or, List.all_eq_true, beq_iff_eq] at ha
    have huni' : ∀ v ∈ f'.visits, ∀ w ∈ f'.visits, v.2 = w.2 := by
      have hall : ∀ v ∈ f'.visits, v.2 = .queue b := fun v hm => by
        rw [hv, List.mem_append, List.mem_singleton] at hm
        rcases hm with hm | rfl
        · exact ha v hm
        · rfl
      exact fun v hm w hw => (hall v hm).trans (hall w hw).symm
    cases b with
    | false =>
      have hl : flow s'.log = flow s.log := by simpa using hl
      have hmem : ∀ j, (j, Visit.queue true) ∈ f'.visits ↔ (j, Visit.queue true) ∈ f.visits := by simp [hv]
      refine ⟨huni', fun j hj => ?_, fun x hx => ?_⟩
      · rw [replayed_same hl, hs, hd]
        exact honce j ((hmem j).mp hj)
      · rw [replayed_same hl]
        exact hnone x fun j hj => hs ▸ hx j ((hmem j).mpr hj)
    | true =>
      rw [if_pos rfl] at hl
      have hS := hV _ (hf ▸ List.mem_cons_self)
      simp only [PostFrame.Sound, hp] at hS
      -- the subscription is not one of those visited before
      have hpos := hI.sid_pos i ((hH.post t _ _ i hf (by rw [hp]; rfl)).occupied)
      have hnew : ∀ j, (j, Visit.queue true) ∈ f.visits → s.sid j ≠ s.sid i := fun j hj he =>
        (hS.2 _ hj).ne (hI.sid_inj i j he.symm hpos).symm
      refine ⟨huni', fun j hj => ?_, fun x hx => ?_⟩
      · rw [replayed_of_flow hl, hs, hd]
        rw [hv, List.mem_append, List.mem_singleton, Prod.mk.injEq] at hj
        rcases hj with hj | ⟨rfl, -⟩
        · simp [replayedStep, (hnew j hj).symm, honce j hj]
        · simp [replayedStep, hnone _ hnew]
      · have hxi : s.sid i ≠ x := hs ▸ hx i (by simp [hv])
        rw [replayed_of_flow hl]
        simp [replayedStep, hxi, hnone x fun j hj => hs ▸ hx j (by simp [hv, hj])]

/-- A finished ASYNC fan-out has visited every subscription that lists its event. -/
theorem visited_of_lists (hr : Reach ok maxSuberNum clients s) (hG : f.Steady) (hf : s.frames t = .post f :: rest)
    (hp : f.pc = .loop i) (hi : ¬ i < s.ctx.maxSuberNum.toNat) (hy : s.isSync f = false) {j : ℕ}
    (hl : (s.suber j).args.lists f.pEvtDesc = true) : ∃ v, (j, v) ∈ f.visits := by
  have hasync : s.isSync f = true → false = true := fun h => by simp [hy] at h
  have hcov := coversAsync_reach hr (hf ▸ List.mem_cons_self) hy
  simp only [PostFrame.Covers, hp] at hcov
  have hj := occupied_lt_reach hr j (EvtSubArgs.cb_ne_null_of_lists hl)
  rw [← maxSuberNum_reach hr] at hj
  rw [(keptAsync_reach hr).lists hf (by simp [hp]) hasync hj] at hl
  have hvis : j ∈ f.visits.map Prod.fst := by
    rw [hcov.2.2, List.mem_filter, List.mem_range, hG.matched, hG.listed]
    exact ⟨hj.trans_le (Nat.not_lt.mp hi), hl⟩
  obtain ⟨⟨j, v⟩, hm, rfl⟩ := List.mem_map.mp hvis
  exact ⟨v, hm⟩

/-- A replay that has returned `r` to the drain loop. -/
theorem copied_returned (hr : Reach ok maxSuberNum clients s) (hok : ∀ s x, ok s x → noReuse s x = true)
    (hC : CopyOk s t) (h : Trans s t a s') (hh' : s'.halted = none) {r : TosResult}
    (hb' : s'.base t = .async i g (.drained p r)) :
    if r = .success then ∀ j, (s'.suber j).occupied → (s'.suber j).args.lists p.desc = true →
        replayed (s'.sid j) t s'.log = [p.desc]
    else ∀ x, replayed x t s'.log = [] := by
  obtain ⟨f, hf, hrep, hd, ho, hb, hl, hs, hc, hpc⟩ := h.drained_self (threadInv_reach hr) hh' hb'
  rw [← hd]
  have hmem : Frame.post f ∈ s.frames t := hf ▸ List.mem_cons_self
  have hS := sound_reach hr t f hmem
  have hy : s.isSync f = false := by simp [State.isSync, ho, isSyncMode_reach hr]
  have hK : ∀ v ∈ f.visits, v.2.isCallback = false := fun v hv =>
    ((kind_reach hr t f hmem).visits v hv).trans hy
  obtain ⟨huni, honce, hnone⟩ := hC.call f hf hrep
  rcases hpc with ⟨hp, hne⟩ | ⟨k, hp, hk, rfl⟩
  · -- the replay did not obtain the context mutex
    simp only [PostFrame.Sound, hp] at hS
    rw [if_neg hne]
    exact fun x => by rw [replayed_same hl]; exact hnone x (by simp [hS.1])
  · simp only [PostFrame.Sound, hp] at hS
    have hres := fanOutResult_uniform hK huni
    rw [hS.1]
    split
    · rename_i hsucc
      intro j _ hlists
      rw [State.suber, hc] at hlists
      obtain ⟨v, hv⟩ := visited_of_lists hr (steadyReplay_reach hok hr t f hmem hrep) hf hp hk hy hlists
      rw [replayed_same hl, hs]
      exact honce j ((hres.mp hsucc).2 _ hv ▸ hv)
    · rename_i hfail
      intro x
      rw [replayed_same hl]
      refine hnone x fun j hj => absurd (hres.mpr ⟨List.ne_nil_of_mem hj, fun v hv => ?_⟩) hfail
      exact huni v hv _ hj

theorem copyOk_self (hr : Reach ok maxSuberNum clients s) (hok : ∀ s x, ok s x → noReuse s x = true) (hC : CopyOk s t)
    (ha : replayUniform s (t, a) = true) (hh : s.halted = none) (h : Trans s t a s') (hh' : s'.halted = none) :
    CopyOk s' t := by
  have hT := threadInv_reach hr
  have hI := slotInv_reach hr
  have hH := holderInv_reach hr
  have he := h.effect hT (allocInv_reach hr)
  refine ⟨fun x hb => ?quiet, fun f hf hrep => ?call, fun i g p n hb hn j ho hlt hl => ?success,
    fun i g p r hb hne x => ?failed⟩
  case quiet =>
    cases h.entry hT t with
    | same h₀ =>
      have h₀ := h₀.symm.trans hb
      rw [he.replayed_idle hT h₀]
      exact hC.quiet x h₀
    | taken _ h₀ => simp [h₀] at hb
    | retired _ hl =>
      rw [replayed_of_flow hl]
      simp [replayedStep]
    | redone hb hr _ hl =>
      rw [replayed_same hl]
      exact hC.failed _ _ _ _ hb hr x
  case call =>
    exact copied_next hI hH (sound_reach hr t) hC ha
      (h.replayStep hT (fun _ _ => desc_of_noReuse hok hr hh) (kind_reach hr t) (isSyncMode_reach hr) hh' hf hrep)
  case success =>
    have := copied_returned hr hok hC h hh' hb
    rw [if_pos rfl] at this
    exact this j ho hl
  case failed =>
    have := copied_returned hr hok hC h hh' hb
    rw [if_neg hne] at this
    exact this x

theorem copyInv_reach (hok : ∀ s x, ok s x → noReuse s x = true)
    (hok' : ∀ s x, ok s x → replayUniform s x = true) (h : Reach ok maxSuberNum clients s) : CopyInv s :=
  h.induction (fun _ u => ⟨fun _ _ => rfl, by simp [State.init],
      fun _ _ _ _ hb => absurd hb (State.init_base_ne _ _ _ _ _ _), fun _ _ _ _ _ _ _ => rfl⟩)
    fun s s' t _ hr hC ha hh h hh' u => by
      by_cases hu : u = t
      · rw [hu]
        exact copyOk_self hr hok (hC hh t) (hok' _ _ ha) hh h hh'
      · exact copyOk_ne hr hok (hok _ _ ha) hh h hh' hu (hC hh u)

/-! ### The law -/

/-- Only the drain loop retires. -/
theorem Effect.retires_eq (h : Effect s s' t) (hret : retires g s'.log = retires g s.log ++ [u]) :
    u = t ∧ ∃ i k p r, s.base t = .async i k (.drained p r) ∧ s.sid i = g ∧
      (r = .success ∨ ((s.suber i).evtCached.cells p.cell).mayDrop = true) := by
  have hno : ∀ {os : List (Obs abi)}, Ioc.flow s'.log = Ioc.flow s.log ++ os → retires g os ≠ [] := fun hl h0 => by
    rw [retires_of_flow hl, h0] at hret
    simp at hret
  cases h
  case retired i k p r _ hb hr _ _ _ hl _ =>
    rw [retires_of_flow hl] at hret
    by_cases hg : s.sid i = g
    · exact ⟨by simpa [retires, hg] using hret.symm, i, k, p, r, hb, hg, hr⟩
    · simp [retires, hg] at hret
  case accepted hl _ | called hl _ | stored hl _ => exact absurd rfl (hno hl)
  case quiet h | flagged h | freed h | kept h | started h =>
    have hl : Ioc.flow s'.log = Ioc.flow s.log ++ [] := by simpa using h.flow
    exact absurd rfl (hno hl)
  case filled hl _ | took hl _ =>
    have hl : Ioc.flow s'.log = Ioc.flow s.log ++ [] := by simpa using hl
    exact absurd rfl (hno hl)

/-- **Cached events are replayed exactly once, where replays agree.**  When a step retires a cached event, the
replays of its thread have pushed it once, and nothing else, into the queue of every subscription that lists it,
was there when the event was cached, and still is. -/
theorem replay_once (hr : Reach replayOk maxSuberNum clients s) (hok : replayOk s (t, a))
    (hn : next s (t, a) = some s') (hret : retires g s'.log = retires g s.log ++ [u]) :
    ∃ n d, (stores g s.log)[(retires g s.log).length]? = some (n, d) ∧
      ∀ j, (s.suber j).occupied → s.sid j < n → (s.suber j).args.lists d = true →
        replayed (s.sid j) u s.log = [d] := by
  obtain ⟨hh, h⟩ := next_trans hn
  obtain ⟨rfl, i, k, p, r, hb, rfl, hres⟩ :=
    (h.effect (threadInv_reach hr) (allocInv_reach hr)).retires_eq hret
  have hsucc : r = .success := by
    have hkeep : keepsMayDrop s (u, a) = true := hok.2.2
    simp only [keepsMayDrop, hb, Bool.or_eq_true, decide_eq_true_eq, Bool.not_eq_true'] at hkeep
    exact hres.elim id fun hd => hkeep.resolve_right (by simp [hd])
  subst hsucc
  obtain ⟨n, hn⟩ := ((cache_reach (fun _ _ h => h.1) hr).2 hh u i p (by rw [hb]; rfl)).head
  have hC := copyInv_reach (fun _ _ h => h.1) (fun _ _ h => h.2.1) hr hh u
  exact ⟨n, p.desc, hn, hC.success i k p n hb hn⟩

/-- Thread `0` subscribes twice to event `7` and once to `8`, and posts both.  The callback of the third
subscription posts `7` while thread `1` holds the context mutex, so that the event is cached.  `skips` is the
number of slots that follow. -/
def cachedPost (skips : ℕ) : List (Tid × Act lp64) :=
  ([(0, .call (.subEVT ⟨1, 1, some [7]⟩)), (0, .go), (0, .call (.subEVT ⟨2, 2, some [7]⟩)), (0, .go),
   (0, .call (.subEVT ⟨3, 3, some [8]⟩)), (0, .go),
   (0, .call (.postEVT (.ofID lp64 7) none)), (0, .go), (0, .go), (0, .go), (0, .signal none),
   (0, .go), (0, .go), (0, .signal none), (0, .go)] : List (Tid × Act lp64)) ++ List.replicate (skips + 1) (0, .go) ++
  ([(0, .call (.postEVT (.ofID lp64 8) none)), (0, .go), (0, .go), (0, .go), (0, .go), (0, .go),
   (0, .signal none)] : List (Tid × Act lp64)) ++ List.replicate (skips + 1) (0, .go) ++
  ([(4, .go), (4, .go), (4, .go), (1, .call (.postEVT (.ofID lp64 9) none)), (1, .go),
   (4, .call (.postEVT (.ofID lp64 7) none)), (4, .go)] : List (Tid × Act lp64)) ++
  List.replicate (skips + 4) (1, .go)

/-- The second subscription takes its event and the first does not, so that the replay finds one full queue and
then one with room. -/
def mixedReplay (skips : ℕ) : List (Tid × Act lp64) :=
  cachedPost skips ++ ([(3, .go), (3, .go), (4, .ret .success), (4, .go), (4, .go), (4, .go), (4, .go),
    (4, .go), (4, .go), (4, .go), (4, .signal none), (4, .go)] : List (Tid × Act lp64)) ++
  List.replicate (skips + 1) (4, .go)

/-- A cached event is retired after a replay that never pushed it into the first of two matching queues, with the
same three subscriptions live all the time. -/
theorem replay_skips :
    ∃ (s s' : State lp64) (d : EvtDesc lp64),
      Reach (fun s x => noReuse s x = true) (initMaxSuberNum lp64) 2 s ∧ next s (4, .go) = some s' ∧
        retires 3 s'.log = retires 3 s.log ++ [4] ∧
        (stores 3 s.log)[(retires 3 s.log).length]? = some (4, d) ∧ s.nextSid = 4 ∧
        (∀ j, j < 3 → (s.suber j).occupied ∧ s.sid j = j + 1) ∧
        (s.suber 0).args.lists d = true ∧ (s.suber 1).args.lists d = true ∧
        replayed (s.sid 0) 4 s.log = [] ∧ replayed (s.sid 1) 4 s.log = [d] := by
  obtain ⟨s, hr, hs⟩ := reach_of_run (fun s x => noReuse s x = true) (initMaxSuberNum lp64) 2 (mixedReplay 29)
    (fun s => (next s (4, .go)).any fun s' => ((stores 3 s.log)[(retires 3 s.log).length]?).any fun x =>
      retires 3 s'.log == retires 3 s.log ++ [4] && x.1 == 4 && s.nextSid == 4 &&
      decide (∀ j : ℕ, j < 3 → (s.suber j).occupied ∧ s.sid j = j + 1) &&
      (s.suber 0).args.lists x.2 && (s.suber 1).args.lists x.2 &&
      replayed (s.sid 0) 4 s.log == [] && replayed (s.sid 1) 4 s.log == [x.2]) (by decide +kernel)
  simp only [Option.any_eq_true, Prod.exists, Bool.and_eq_true, beq_iff_eq, decide_eq_true_eq] at hs
  obtain ⟨s', hn, n, d, hst, ⟨⟨⟨⟨⟨⟨hret, rfl⟩, hsid⟩, hall⟩, h0⟩, h1⟩, hc0⟩, hc1⟩ := hs
  exact ⟨s, s', d, hr, hn, hret, hst, hsid, hall, h0, h1, hc0, hc1⟩

/-- Both subscriptions take their event before the replay. -/
theorem replay_once_first :
    ∃ (s s' : State lp64), next s (4, .go) = some s' ∧ retires 3 s'.log = retires 3 s.log ++ [4] ∧
      ∃ n d, (stores 3 s.log)[(retires 3 s.log).length]? = some (n, d) ∧
        ∀ j, (s.suber j).occupied → s.sid j < n → (s.suber j).args.lists d = true →
          replayed (s.sid j) 4 s.log = [d] := by
  obtain ⟨s, hr, hs⟩ := reach_of_run replayOk (3 : ULong lp64) 2
    (cachedPost 0 ++ [(2, .go), (2, .go), (3, .go), (3, .go), (4, .ret .success), (4, .go), (4, .go), (4, .go),
      (4, .go), (4, .go), (4, .signal none), (4, .go), (4, .go), (4, .signal none), (4, .go), (4, .go)])
    (fun s => (next s (4, .go)).any fun s' =>
      decide (replayOk s (4, .go)) && retires 3 s'.log == retires 3 s.log ++ [4]) (by decide +kernel)
  simp only [Option.any_eq_true, Bool.and_eq_true, beq_iff_eq, decide_eq_true_eq] at hs
  obtain ⟨s', hn, hok, hret⟩ := hs
  exact ⟨s, s', hn, hret, replay_once hr hok hn hret⟩

end PlatIF.Ioc
