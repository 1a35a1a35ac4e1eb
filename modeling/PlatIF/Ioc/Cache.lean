import PlatIF.Ioc.FanOut
import PlatIF.Ioc.History

/-!
# The cache of an async thread

While no slot is refilled over a running thread, the cache of a slot is a bounded queue with one thread at both
ends: it holds the events stored for the subscription in the slot, less the retired ones, in order
(`CacheInv`).  The event that the drain loop replays is the oldest of them, and its pointer leads to that event
(`HeadInv`), until it is retired (`entry_index`, `entry_procCnt`).
-/

namespace PlatIF.Ioc

variable {abi : Abi} {s s' : State abi} {t u : Tid} {a : Act abi} {i g k : ℕ} {d : EvtDesc abi} {p : CachedPtr abi}
  {rest : List (Frame abi)} {ok : State abi → Tid × Act abi → Prop} {maxSuberNum : ULong abi}
  {clients : ℕ}

/-- The counters of a cache may wrap. -/
theorem evtCachedMax_dvd (abi : Abi) : evtCachedMax ∣ 2 ^ abi.ulongBits :=
  Dvd.dvd.trans (by decide : evtCachedMax ∣ 2 ^ 32) (pow_dvd_pow 2 abi.ulongBits_ge)

theorem evtCachedMax_lt (abi : Abi) : evtCachedMax < 2 ^ abi.ulongBits :=
  lt_of_lt_of_le (by decide) abi.pow_le

/-- The cache holds what was stored and not yet retired. -/
structure CacheOk (x : Suber abi) (l : Ledger abi) : Prop where
  contents : x.evtCached.contents = (l.stores.drop l.retires.length).map Prod.snd
  le : l.retires.length ≤ l.stores.length

def CacheInv (s : State abi) : Prop := ∀ i, CacheOk (s.suber i) (ledger (s.sid i) s.log)

/-- The cached entry that the thread replays, or has just replayed, with its slot. -/
def Base.entry : Base abi → Option (ℕ × CachedPtr abi)
  | .async i _ (.replay p) => some (i, p)
  | .async i _ (.drained p _) => some (i, p)
  | _ => none

theorem State.runsOn_of_entry (he : (s.base u).entry = some (i, p)) : s.RunsOn u i := by
  cases hb : s.base u with
  | async j g pc =>
    rw [hb] at he
    cases pc <;> simp only [Base.entry, reduceCtorEq, Option.some.injEq, Prod.mk.injEq] at he <;>
      exact ⟨g, _, he.1 ▸ hb⟩
  | _ => simp [hb, Base.entry] at he

/-- The entry is the oldest of the ledger. -/
def Ledger.HeadIs (l : Ledger abi) (d : EvtDesc abi) : Prop :=
  ∃ n, l.stores[l.retires.length]? = some (n, d)

/-- The drain loop works on the oldest entry, and its pointer leads to it. -/
structure State.PointsAt (s : State abi) (i : ℕ) (p : CachedPtr abi) : Prop where
  head : (ledger (s.sid i) s.log).HeadIs p.desc
  cell : p.cell = WrapRing.cellOf _ (s.suber i).evtCached.procCnt

def HeadInv (s : State abi) : Prop :=
  s.halted = none → ∀ u i p, (s.base u).entry = some (i, p) → s.PointsAt i p

theorem CacheOk.congr {x y : Suber abi} {l l' : Ledger abi} (h : CacheOk x l)
    (hc : y.evtCached = x.evtCached) (hs : l'.stores = l.stores) (hr : l'.retires = l.retires) :
    CacheOk y l' :=
  ⟨by rw [hc, hs, hr]; exact h.contents, by rw [hs, hr]; exact h.le⟩

theorem CacheOk.store {x y : Suber abi} {l l' : Ledger abi} {n : ℕ} (h : CacheOk x l)
    (hroom : x.evtCached.hasRoom = true) (hc : y.evtCached = x.evtCached.push d)
    (hs : l'.stores = l.stores ++ [(n, d)]) (hr : l'.retires = l.retires) : CacheOk y l' := by
  have hle := h.le
  refine ⟨?_, by rw [hs, hr, List.length_append]; omega⟩
  rw [hc, WrapRing.contents_push (evtCachedMax_dvd abi) (evtCachedMax_lt abi) _ _
    ((WrapRing.hasRoom_iff _).mp hroom), hs, hr, List.drop_append_of_le_length h.le, List.map_append,
    h.contents]
  rfl

/-- What is left of a cache when the oldest entry of the ledger is retired. -/
theorem CacheOk.pop {x : Suber abi} {l : Ledger abi} (h : CacheOk x l) (hd : l.HeadIs d) :
    l.retires.length < l.stores.length ∧ x.evtCached.contents = d :: x.evtCached.pop.contents ∧
      x.evtCached.pop.contents = (l.stores.drop (l.retires.length + 1)).map Prod.snd := by
  obtain ⟨n, hn⟩ := hd
  obtain ⟨hlt, hget⟩ := List.getElem?_eq_some_iff.mp hn
  have hcons := h.contents
  rw [List.drop_eq_getElem_cons hlt, hget, List.map_cons] at hcons
  have hne : x.evtCached.pending ≠ 0 := fun h0 => by
    rw [← WrapRing.contents_length, hcons] at h0
    simp at h0
  have hpop := WrapRing.contents_pop x.evtCached hne
  rw [hcons, List.cons.injEq] at hpop
  exact ⟨hlt, by rw [hcons, hpop.2], hpop.2.symm⟩

theorem CacheOk.retire {x y : Suber abi} {l l' : Ledger abi} (h : CacheOk x l) (hd : l.HeadIs d)
    (hc : y.evtCached = x.evtCached.pop) (hs : l'.stores = l.stores)
    (hr : l'.retires = l.retires ++ [t]) : CacheOk y l' := by
  obtain ⟨hlt, -, hpop⟩ := h.pop hd
  refine ⟨?_, by rw [hs, hr, List.length_append]; exact hlt⟩
  rw [hc, hpop, hs, hr, List.length_append]
  rfl

/-! ### The entry in the drain loop -/

/-- What a step does to the entry that a thread replays. -/
inductive EntryStep (s s' : State abi) (t u : Tid) : Prop
  | same (h : (s'.base u).entry = (s.base u).entry)
  | taken {j : ℕ} (hu : u = t) (h : (s'.base u).entry =
        some (j, ⟨WrapRing.cellOf _ (s.suber j).evtCached.procCnt, (s.suber j).evtCached.front⟩))
      (hp : (s.suber j).evtCached.pending ≠ 0) (hc : s'.ctx = s.ctx) (hs : s'.sid = s.sid)
      (hl : flow s'.log = flow s.log)
  | retired {j : ℕ} (h : (s'.base u).entry = none)
      (hl : flow s'.log = flow s.log ++ [.retire (s.sid j) u])
  | redone {j g : ℕ} {p : CachedPtr abi} {r : TosResult} (hb : s.base u = .async j g (.drained p r))
      (hr : r ≠ .success) (h : (s'.base u).entry = none) (hl : flow s'.log = flow s.log)

theorem retPost_entry (s₁ : State abi) {f : PostFrame abi} {r : TosResult} :
    ((s₁.retPost t f rest r).base t).entry = (s₁.base t).entry := by
  rcases State.retPost_base_self s₁ t f rest r with h | ⟨i, g, d, -, h, h'⟩
  · rw [h]
  · rw [h, h']
    rfl

theorem entry_self (hT : ThreadInv s) (h : Trans s t a s') : EntryStep s s' t t := by
  have hS := hT.stack t
  cases h
  case unsubSignal hf _ hw | postSignal hf _ hw | postRetrySignal hf _ hw =>
    exact .same (congrArg Base.entry (hw.base_self hS (by simp [hf])))
  case postAccept hf _ _ _ | postFull hf _ _ _ _ | postRetry hf _ _ _ _ _ | haltPush hf _ =>
    have hb := State.withThread_base_self (i := ‹_›) (hT.ne_nextTid (t := t) (by simp [hf]))
    exact .same (congrArg Base.entry (by simpa using hb))
  case postNotFound | postBusy | postCacheFull | postCache | postEnd => exact .same (retPost_entry _)
  case asyncReplay i g hf hb hc =>
    exact .taken rfl (by simp [Base.entry]) (Nat.ne_of_gt hc) rfl rfl rfl
  case asyncRetire i g d hf hb =>
    exact .retired (j := i) (by simp [Base.entry]) (by simp [flow, Obs.isFlow])
  case asyncRedo hf hb hr _ => exact .redone hb hr (by simp [Base.entry]) rfl
  case asyncExit hf hb hp _ _ _ | asyncWait hf hb hp _ _ _ | asyncTake hf hb hp _ _ =>
    exact .same (by rcases hp with rfl | rfl <;> simp [hb, Base.entry])
  case asyncStart hf hb | asyncWake hf hb | asyncCall hf hb _ | asyncDrain hf hb _ | asyncTop hf hb _ |
      cbRetAsync hf hb => exact .same (by simp [hb, Base.entry])
  all_goals exact .same rfl

theorem Trans.entry (hT : ThreadInv s) (h : Trans s t a s') (u : Tid) : EntryStep s s' t u := by
  by_cases hu : u = t
  · subst hu
    exact entry_self hT h
  · cases h.base_ne hu with
    | same hb => exact .same (by rw [hb])
    | created hn _ _ _ hb => exact .same (by rw [hb, (hT.fresh u hn.ge).1]; rfl)
    | woken hb hb' => exact .same (by rw [hb, hb']; rfl)

/-- A thread that has retired an entry is done with it. -/
theorem Trans.retired_entry (h : Trans s t a s')
    (hl : flow s'.log = flow s.log ++ [.retire k u]) (hh : s'.halted = none) :
    (s'.base t).entry = none := by
  have hsame : ∀ {l : List (Obs abi)}, l ≠ l ++ [.retire k u] := fun {l} h => by simpa using h.symm
  cases h
  case asyncRetire => simp [Base.entry]
  case haltRetire => simp at hh
  case unsubSignal hw | postSignal hw | postRetrySignal hw =>
    obtain ⟨b, rfl, -⟩ := hw.eq
    exact absurd hl hsame
  case unsubFreeNext => exact absurd (flow_freeSlot.symm.trans hl) hsame
  case unsubFreeDone =>
    simp only [State.ret_eq, State.setCtx, flow_append, flow_freeSlot] at hl
    simp [flow, Obs.isFlow] at hl
  all_goals simp [flow, Obs.isFlow, List.filter_cons] at hl

/-- While a thread works on an entry, the entry stays where it is in the ledger of the slot. -/
theorem entry_ledger (hT : ThreadInv s) (hA : AllocInv s) (hH : HolderInv s) (hI : SlotInv s)
    (hO : OwnInv s) (hok : noReuse s (t, a) = true) (h : Trans s t a s') (hh : s'.halted = none)
    (he : (s.base u).entry = some (i, p)) (he' : (s'.base u).entry = some (i, p)) :
    s'.sid i = s.sid i ∧ retires (s.sid i) s'.log = retires (s.sid i) s.log ∧
      ∃ xs, stores (s.sid i) s'.log = stores (s.sid i) s.log ++ xs := by
  have hrun := State.runsOn_of_entry he
  have hE := h.effect hT hA
  have hsid : s'.sid i = s.sid i := by
    rcases hE.sid with ⟨hs, -⟩ | ⟨k, -, hs, -⟩
    · rw [hs]
    · have hik : i ≠ k := fun hik => noReuse_fresh hA hI hT hok h (by simp [hs, hik]) hrun
      rw [hs, Function.update_of_ne hik]
  refine ⟨hsid, ?_⟩
  rcases hE.flow hT hH hI with hl | ⟨k, o, hl, ho, h0, -⟩
  · have := ledger_same hl (s.sid i)
    exact ⟨congrArg Ledger.retires this, [], by rw [List.append_nil]; exact congrArg Ledger.stores this⟩
  · by_cases hg : o.about = some (s.sid i)
    · cases hE
      case stored hl' _ =>
        obtain rfl := List.singleton_inj.mp (List.append_cancel_left (hl'.symm.trans hl))
        exact ⟨by rw [retires_of_flow hl]; simp [retires], _, stores_of_flow hl⟩
      case retired j g d' r hf hb _ _ _ _ hl' _ =>
        -- only the thread of the slot retires from its cache, and it works on no entry then
        obtain rfl := List.singleton_inj.mp (List.append_cancel_left (hl'.symm.trans hl))
        have hj : s.sid j = s.sid i := Option.some.inj hg
        obtain rfl := hI.sid_inj j i hj (hj ▸ hI.sid_run u i hrun)
        obtain rfl := hO.unique u t j hrun ⟨g, _, hb⟩
        simp [h.retired_entry hl' hh] at he'
      case accepted hl' _ =>
        obtain rfl := List.singleton_inj.mp (List.append_cancel_left (hl'.symm.trans hl))
        exact ⟨by rw [retires_of_flow hl]; simp [retires], _, stores_of_flow hl⟩
      case called hl' _ =>
        obtain rfl := List.singleton_inj.mp (List.append_cancel_left (hl'.symm.trans hl))
        exact ⟨by rw [retires_of_flow hl]; simp [retires], _, stores_of_flow hl⟩
      case quiet h | flagged h | freed h | kept h | started h => simp [h.flow] at hl
      case filled hl' _ | took hl' _ => simp [hl'] at hl
    · have := ledger_other hl hg
      exact ⟨congrArg Ledger.retires this, [], by rw [List.append_nil]; exact congrArg Ledger.stores this⟩

/-- The entry of a thread is where it was in the ledger. -/
theorem entry_index (hT : ThreadInv s) (hA : AllocInv s) (hH : HolderInv s) (hI : SlotInv s)
    (hO : OwnInv s) (hok : noReuse s (t, a) = true) (h : Trans s t a s') (hh : s'.halted = none)
    (he : (s.base u).entry = some (i, p)) (he' : (s'.base u).entry = some (i, p)) {x : ℕ × EvtDesc abi}
    (hx : (ledger (s.sid i) s.log).stores[(ledger (s.sid i) s.log).retires.length]? = some x) :
    (ledger (s'.sid i) s'.log).stores[(ledger (s'.sid i) s'.log).retires.length]? = some x := by
  obtain ⟨hs, hr, xs, hst⟩ := entry_ledger hT hA hH hI hO hok h hh he he'
  simp only [ledger] at hx ⊢
  rw [hs, hr, hst, List.getElem?_append_left (List.getElem?_eq_some_iff.mp hx).1, hx]

/-- Nobody retires from the cache of the slot meanwhile. -/
theorem entry_procCnt (hT : ThreadInv s) (hA : AllocInv s) (hI : SlotInv s) (hO : OwnInv s)
    (hok : noReuse s (t, a) = true) (h : Trans s t a s') (hh : s'.halted = none)
    (he : (s.base u).entry = some (i, p)) (he' : (s'.base u).entry = some (i, p)) :
    (s'.suber i).evtCached.procCnt = (s.suber i).evtCached.procCnt := by
  have hrun := State.runsOn_of_entry he
  have hE := h.effect hT hA
  cases hE
  case quiet hc _ | called hc _ _ _ _ => rw [State.suber, hc]
  case filled k x _ _ _ _ _ hc hs _ _ _ =>
    have hik : i ≠ k := fun hik => noReuse_fresh hA hI hT hok h (by simp [hs, hik]) hrun
    simp [State.suber, hc, hik]
  case flagged k _ _ _ _ hc _ | freed k _ _ _ hc _ | kept k _ _ _ _ hc _ =>
    by_cases hik : i = k <;> simp [State.suber, hc, hik, Suber.freed, Suber.clearArgs]
  case started k _ x _ _ hx hc _ _ _ =>
    by_cases hik : i = k <;> simp [State.suber, hc, hik, hx.evtCached]
  case accepted k _ _ _ _ hc _ _ _ _ _ _ => by_cases hik : i = k <;> simp [State.suber, hc, hik]
  case took k _ _ _ _ _ _ hc _ _ _ _ => by_cases hik : i = k <;> simp [State.suber, hc, hik]
  case stored k _ _ _ _ _ hc _ _ _ _ => by_cases hik : i = k <;> simp [State.suber, hc, hik]
  case retired k g _ r hf hb _ hc _ _ hl _ =>
    have hik : i ≠ k := fun hik => by
      subst hik
      obtain rfl := hO.unique u t i hrun ⟨g, _, hb⟩
      simp [h.retired_entry hl hh] at he'
    simp [State.suber, hc, hik]

/-! ### The cache is the ledger -/

theorem CacheOk.head {x : Suber abi} {l : Ledger abi} (h : CacheOk x l)
    (hp : x.evtCached.pending ≠ 0) : l.HeadIs x.evtCached.front := by
  have hcons := h.contents
  rw [WrapRing.contents_pop _ hp] at hcons
  have hget := congrArg (·[0]?) hcons
  simp only [List.getElem?_cons_zero, List.getElem?_map, List.getElem?_drop, Nat.add_zero] at hget
  obtain ⟨x, hx, hd⟩ := Option.map_eq_some_iff.mp hget.symm
  exact ⟨x.1, by rw [hx, ← hd]⟩

theorem headInv_trans (hT : ThreadInv s) (hA : AllocInv s) (hH : HolderInv s) (hI : SlotInv s)
    (hO : OwnInv s) (hC : CacheInv s) (hD : HeadInv s) (hh : s.halted = none)
    (hok : noReuse s (t, a) = true) (h : Trans s t a s') : HeadInv s' := by
  intro hh' u i p he'
  cases h.entry hT u with
  | same he =>
    have he := he.symm.trans he'
    obtain ⟨⟨n, hn⟩, hcell⟩ := hD hh u i p he
    exact ⟨⟨n, entry_index hT hA hH hI hO hok h hh' he he' hn⟩,
      hcell.trans (by rw [entry_procCnt hT hA hI hO hok h hh' he he'])⟩
  | retired h _ | redone _ _ h _ => simp [h] at he'
  | taken _ h hp hc hs hl =>
    obtain ⟨rfl, rfl⟩ := Prod.mk.inj (Option.some.inj (h.symm.trans he'))
    refine ⟨?_, by rw [State.suber, State.suber, hc]⟩
    rw [hs, ledger_same hl]
    exact (hC _).head hp

theorem cacheInv_trans (hT : ThreadInv s) (hH : HolderInv s) (hI : SlotInv s) (hR : FreshInv s)
    (hC : CacheInv s) (hD : HeadInv s) (hh : s.halted = none) (he : Effect s s' t) : CacheInv s' := by
  intro j
  have hold := hC j
  have hsame : s'.sid j = s.sid j → Ioc.flow s'.log = Ioc.flow s.log →
      ledger (s'.sid j) s'.log = ledger (s.sid j) s.log := fun hs hl => by rw [hs, ledger_same hl]
  have hother : ∀ {k o}, j ≠ k → s'.sid = s.sid → Ioc.flow s'.log = Ioc.flow s.log ++ [o] →
      o.about = some (s.sid k) → ledger (s'.sid j) s'.log = ledger (s.sid j) s.log :=
    fun {k o} hj hs hl ho => by
      rw [hs, ledger_other hl]
      rw [ho]
      exact fun h => hj (hI.sid_inj k j (Option.some.inj h) (he.about_ne_zero hT hH hI hl ho)).symm
  cases he
  case stored k _ _ _ _ hr hc hs _ hl _ =>
    by_cases hj : j = k
    · subst hj
      rw [hs, ledger_store hl]
      exact hold.store hr (by simp [State.suber, hc]) rfl rfl
    · rw [hother hj hs hl rfl]
      exact hold.congr (by simp [State.suber, hc, hj]) rfl rfl
  case retired k g d r _ hb _ hc hs _ hl _ =>
    by_cases hj : j = k
    · subst hj
      rw [hs, ledger_retire hl]
      exact hold.retire (hD hh t j d (by rw [hb]; rfl)).head (by simp [State.suber, hc]) rfl rfl
    · rw [hother hj hs hl rfl]
      exact hold.congr (by simp [State.suber, hc, hj]) rfl rfl
  case called hc hs _ hl _ =>
    rw [hs, ledger_of_flow hl]
    exact hold.congr (by rw [State.suber, hc]) (by simp [stores]) (by simp [retires])
  case accepted k _ _ _ _ hc _ _ hs _ hl _ =>
    rw [hs, ledger_of_flow hl]
    exact hold.congr (by by_cases hj : j = k <;> simp [State.suber, hc, hj]) (by simp [stores])
      (by simp [retires])
  case quiet hc h =>
    rw [hsame (congrFun h.sid j) h.flow]
    exact hold.congr (by rw [State.suber, hc]) rfl rfl
  case flagged k _ _ _ _ hc h | freed k _ _ _ hc h | kept k _ _ _ _ hc h =>
    rw [hsame (congrFun h.sid j) h.flow]
    exact hold.congr (by by_cases hj : j = k <;> simp [State.suber, hc, hj, Suber.freed, Suber.clearArgs])
      rfl rfl
  case started k _ x _ _ hx hc _ _ h =>
    rw [hsame (congrFun h.sid j) h.flow]
    exact hold.congr (by by_cases hj : j = k <;> simp [State.suber, hc, hj, hx.evtCached]) rfl rfl
  case took k _ _ _ _ _ _ hc hs _ hl _ =>
    rw [hsame (congrFun hs j) hl]
    exact hold.congr (by by_cases hj : j = k <;> simp [State.suber, hc, hj]) rfl rfl
  case filled k x _ _ _ hx _ hc hs _ hl _ =>
    by_cases hj : j = k
    · rw [hj, hs, Function.update_self, ledger_same hl, hR _ le_rfl, show s'.suber k = x by simp [State.suber, hc]]
      exact ⟨by rw [hx.evtCached, WrapRing.contents_of_eq rfl]; rfl, le_rfl⟩
    · rw [hsame (by simp [hs, hj]) hl]
      exact hold.congr (by simp [State.suber, hc, hj]) rfl rfl

/-- **The cache of every slot is a bounded queue, drained from its head.** -/
theorem cache_reach (hok : ∀ s x, ok s x → noReuse s x = true) (h : Reach ok maxSuberNum clients s) :
    CacheInv s ∧ HeadInv s := by
  refine h.induction (P := fun s => CacheInv s ∧ HeadInv s)
    ⟨fun i => ⟨WrapRing.contents_of_eq rfl, le_rfl⟩, fun _ u i d he => ?_⟩
    fun _ _ _ _ hr ⟨hC, hD⟩ ha hh h => ?_
  · exact absurd (State.runsOn_of_entry he) (State.init_not_runsOn u i)
  · have hT := threadInv_reach hr
    have hA := allocInv_reach hr
    have hH := holderInv_reach hr
    have hI := slotInv_reach hr
    exact ⟨cacheInv_trans hT hH hI (freshInv_reach hr) hC hD hh (h.effect hT hA),
      headInv_trans hT hA hH hI (ownInv_reach hok hr) hC hD hh (hok _ _ ha) h⟩

/-! ### What a replay looks at -/

/-- The entry that is replayed, or was just replayed, is still in its cell. -/
theorem cells_of_entry (hok : ∀ s x, ok s x → noReuse s x = true) (h : Reach ok maxSuberNum clients s)
    (hh : s.halted = none) (he : (s.base u).entry = some (i, p)) : (s.suber i).evtCached.cells p.cell = p.desc := by
  obtain ⟨hC, hD⟩ := cache_reach hok h
  obtain ⟨hhead, hcell⟩ := hD hh u i p he
  have hcons := ((hC i).pop hhead).2.1
  have hne : (s.suber i).evtCached.pending ≠ 0 := fun h0 => by
    rw [← WrapRing.contents_length, hcons] at h0
    simp at h0
  rw [WrapRing.contents_pop _ hne, List.cons.injEq] at hcons
  rw [hcell]
  exact hcons.1

/-- So a replay looks at the event it was started for. -/
theorem desc_of_noReuse (hok : ∀ s x, ok s x → noReuse s x = true) (h : Reach ok maxSuberNum clients s)
    (hh : s.halted = none) {f : PostFrame abi} (hf : s.frames t = .post f :: rest) : s.desc t f = f.pEvtDesc := by
  have hS := (threadInv_reach h).stack t
  rw [hf] at hS
  rcases hS.of_post.2 with ⟨hr, -⟩ | ⟨hr, -, i, g, p, hb, hd, -⟩
  · exact s.desc_of_not_replay t f hr
  · rw [State.desc, hr, hb, hd]
    exact cells_of_entry hok h hh (by rw [hb]; rfl)

/-- A replay tests one event at every slot. -/
theorem steadyReplay_reach (hok : ∀ s x, ok s x → noReuse s x = true) (h : Reach ok maxSuberNum clients s) :
    ∀ t p, .post p ∈ s.frames t → p.isReplay = true → p.Steady :=
  h.induction (P := fun s => ∀ t p, .post p ∈ s.frames t → p.isReplay = true → p.Steady)
    (fun t p hp => by simp [State.init] at hp)
    fun s s' t a hr hP ha hh h u p hp hrep => by
      by_cases hu : u = t
      · subst hu
        refine steady_step (fun q => q.isReplay = true) (fun p q hk _ hr => hr ▸ hk) (fun f rest i hf _ _ => ?_)
          (fun c p rest i d _ hk _ hr _ => by simp [hk] at hr) (hP u) h p hp hrep
        rw [desc_of_noReuse hok hr hh hf]
      · rw [h.frames_ne hu] at hp
        exact hP u p hp hrep

/-- An ASYNC call tests one event at every slot. -/
theorem steady_of_noReuse (hok : ∀ s x, ok s x → noReuse s x = true) (h : Reach ok maxSuberNum clients s)
    {f : PostFrame abi} (hf : .post f ∈ s.frames t) (hy : s.isSync f = false) : f.Steady := by
  cases hr : f.isReplay with
  | false => exact steadyAsync_reach h hf hr hy
  | true => exact steadyReplay_reach hok h t f hf hr

/-- The slot that such a call stands at lists its event. -/
theorem lists_of_slot (hok : ∀ s x, ok s x → noReuse s x = true) (h : Reach ok maxSuberNum clients s)
    {f : PostFrame abi} (hf : s.frames t = .post f :: rest) (hp : f.pc.slot = some i) :
    (s.suber i).args.lists f.pEvtDesc = true := by
  have hP := (holderInv_reach h).post t f rest i hf hp
  have hmem : Frame.post f ∈ s.frames t := hf ▸ List.mem_cons_self
  have hS := steady_of_noReuse hok h hmem hP.async
  have hargs := keptAsync_reach h t f rest hf (PostPc.slot_ne_lock hp) (fun hy => by simp [hP.async] at hy) i hP.lt
  rw [hargs, ← PostFrame.lists, ← hS.listed, ← hS.matched]
  have hC := coversAsync_reach h hmem hP.async
  have hV := sound_reach h t f hmem
  cases hpc : f.pc <;> simp only [PostPc.slot, hpc, Option.some.injEq, reduceCtorEq] at hp <;> subst hp <;>
    simp only [PostFrame.Covers, PostFrame.Sound, hpc] at hC hV
  case push => exact hC.2.2.1
  case retry => exact hC.2.2.1
  case signal j =>
    obtain ⟨vs, hvs, -⟩ := hV
    have hj : j ∈ (List.range (j + 1)).filter f.matched := by
      rw [← hC.2.2, hvs]
      simp
    exact (List.mem_filter.mp hj).2

end PlatIF.Ioc
