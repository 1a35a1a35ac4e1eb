import PlatIF.Ioc.Section

/-!
# What a step does to the slots and the events

`Trans` follows the program points.  The delivery laws are about something coarser: the table, the
subscriptions that fill it, and the events that are pushed, taken, handed to a callback, cached and retired.
`Effect` lists the kinds of steps by what they do to these, and `Trans.effect` says that there are no others.

* `accepted`, `delivered`, `stores`, `retires` — what the log says of one subscription;
* `Base.taken` — the event that an async thread has taken and not yet handed to the callback;
* `Trans.effect` — one case for each kind of step, and `quiet` for all the rest.
-/

namespace PlatIF.Ioc

variable {abi : Abi} {s s' s₁ : State abi} {t u : Tid} {a : Act abi} {i g : ℕ}
  {rest : List (Frame abi)}

/-! ### The history of one subscription -/

/-- The log entries about events in queues and caches. -/
def Obs.isFlow : Obs abi → Bool
  | .accept .. | .deliver .. | .store .. | .retire .. => true
  | _ => false

/-- The log, without the entries that move no event. -/
def flow (log : List (Obs abi)) : List (Obs abi) := log.filter Obs.isFlow

/-- The events pushed into the queue of subscription `g`. -/
def accepted (g : ℕ) (log : List (Obs abi)) : List (EvtDesc abi) :=
  log.filterMap fun
    | .accept g' _ _ d => if g' = g then some d else none
    | _ => none

/-- The events handed to the callback of subscription `g` by an async thread. -/
def delivered (g : ℕ) (log : List (Obs abi)) : List (EvtDesc abi) :=
  log.filterMap fun
    | .deliver g' _ d => if g' = g then some d else none
    | _ => none

/-- The events put into the cache of subscription `g`, each with the number of the next subscription. -/
def stores (g : ℕ) (log : List (Obs abi)) : List (ℕ × EvtDesc abi) :=
  log.filterMap fun
    | .store g' n d => if g' = g then some (n, d) else none
    | _ => none

/-- The retirements from the cache of subscription `g`, each with the thread that made it. -/
def retires (g : ℕ) (log : List (Obs abi)) : List Tid :=
  log.filterMap fun
    | .retire g' t => if g' = g then some t else none
    | _ => none

theorem flow_append (l l' : List (Obs abi)) : flow (l ++ l') = flow l ++ flow l' :=
  List.filter_append ..

/-- A projection that sees only the flow of events is determined by it. -/
theorem filterMap_of_flow {α : Type} {p : Obs abi → Option α} (hp : ∀ o, o.isFlow = false → p o = none)
    {l l' os : List (Obs abi)} (h : flow l' = flow l ++ os) :
    l'.filterMap p = l.filterMap p ++ os.filterMap p := by
  have hflow : ∀ l : List (Obs abi), l.filterMap p = (flow l).filterMap p := fun l => by
    rw [flow, List.filterMap_filter]
    congr 1
    funext o
    cases ho : o.isFlow with
    | true => rfl
    | false => simp [hp o ho]
  rw [hflow, h, List.filterMap_append, hflow l]

theorem accepted_of_flow {l l' os : List (Obs abi)} (h : flow l' = flow l ++ os) :
    accepted g l' = accepted g l ++ accepted g os :=
  filterMap_of_flow (fun o ho => by cases o <;> simp_all [Obs.isFlow]) h

theorem delivered_of_flow {l l' os : List (Obs abi)} (h : flow l' = flow l ++ os) :
    delivered g l' = delivered g l ++ delivered g os :=
  filterMap_of_flow (fun o ho => by cases o <;> simp_all [Obs.isFlow]) h

theorem stores_of_flow {l l' os : List (Obs abi)} (h : flow l' = flow l ++ os) :
    stores g l' = stores g l ++ stores g os :=
  filterMap_of_flow (fun o ho => by cases o <;> simp_all [Obs.isFlow]) h

theorem retires_of_flow {l l' os : List (Obs abi)} (h : flow l' = flow l ++ os) :
    retires g l' = retires g l ++ retires g os :=
  filterMap_of_flow (fun o ho => by cases o <;> simp_all [Obs.isFlow]) h

/-! ### Events in the hand of a thread -/

/-- The event that the thread has taken from its queue, before it calls the callback. -/
def Base.taken : Base abi → List (EvtDesc abi)
  | .async _ _ (.call d) => [d]
  | _ => []

theorem retPost_taken (f : PostFrame abi) (r : TosResult) :
    ((s.retPost t f rest r).base u).taken = (s.base u).taken := by
  by_cases hu : u = t
  · subst hu
    rcases State.retPost_base_self s u f rest r with h | ⟨i, g, d, -, h, h'⟩
    · rw [h]
    · rw [h, h']
      rfl
  · rw [State.retPost_base_ne _ _ _ _ _ hu]

theorem State.Woken.taken (hw : s.Woken i s₁) : (s₁.base u).taken = (s.base u).taken := by
  obtain ⟨b, rfl, hb⟩ := hw.eq
  rcases hb u with h | ⟨g, h, h'⟩
  · exact congrArg Base.taken h
  · rw [h, show ({ s with base := b } : State abi).base u = _ from h']
    rfl

/-- A new thread has taken nothing. -/
theorem withThread_taken (hT : ThreadInv s) :
    ((s.withThread i).base u).taken = (s.base u).taken := by
  rcases State.withThread_base s i u with h | ⟨-, hu, h⟩
  · rw [h]
  · rw [h, hu, (hT.fresh _ le_rfl).1]
    rfl

/-- A thread that moves between two program points where it has taken nothing. -/
theorem update_taken {b : Base abi} (hb : b.taken = (s.base t).taken) :
    (Function.update s.base t b u).taken = (s.base u).taken := by
  by_cases hu : u = t
  · subst hu
    simpa using hb
  · simp [hu]

/-! ### Effects -/

/-- The slot as a visit leaves it that pushes nothing: with a thread. -/
structure Started (s : State abi) (i : ℕ) (x : Suber abi) : Prop where
  args : x.args = (s.suber i).args
  flag : x.shouldExitASyncThread = (s.suber i).shouldExitASyncThread
  asyncThreadID : x.asyncThreadID = some ((s.suber i).asyncThreadID.getD s.nextTid)
  evtQueue : x.evtQueue = (s.suber i).evtQueue
  evtCached : x.evtCached = (s.suber i).evtCached

/-- A slot as `subEVT` fills it: no thread, no exit flag, nothing queued or cached. -/
structure Suber.Blank (x : Suber abi) : Prop where
  flag : x.shouldExitASyncThread = false
  asyncThreadID : x.asyncThreadID = none
  evtQueue : x.evtQueue = ⟨0, 0, fun _ => default⟩
  evtCached : x.evtCached = ⟨0, 0, fun _ => default⟩

/-- The step moves no subscription and no event. -/
structure Still (s s' : State abi) : Prop where
  sid : s'.sid = s.sid
  nextSid : s'.nextSid = s.nextSid
  flow : flow s'.log = flow s.log
  taken : ∀ u, (s'.base u).taken = (s.base u).taken

/-- What a step of `t` does to the table and to the events. -/
inductive Effect (s s' : State abi) (t : Tid) : Prop
  | quiet (hc : s'.ctx.pEvtSubers = s.ctx.pEvtSubers) (h : Still s s')
  /-- `subEVT` fills a free slot. -/
  | filled {f i x} (hf : s.frames t = .sub f :: s'.frames t) (hi : i < s.ctx.maxSuberNum.toNat)
      (hfree : ¬ (s.suber i).occupied)
      (hx : x.Blank) (ha : x.args.cbProcEvtF = f.pEvtSubArgs.cbProcEvtF)
      (hc : s'.ctx.pEvtSubers = Function.update s.ctx.pEvtSubers i x)
      (hs : s'.sid = Function.update s.sid i s.nextSid) (hn : s'.nextSid = s.nextSid + 1)
      (hl : flow s'.log = flow s.log) (hb : s'.base = s.base)
  /-- `unsubEVT` sets the exit flag. -/
  | flagged {f i rest} (hf : s.frames t = .unsub f :: rest) (hp : f.pc = .stop i)
      (hf' : s'.frames t = .unsub { f with pc := .signal i } :: rest)
      (hc : s'.ctx.pEvtSubers =
        Function.update s.ctx.pEvtSubers i { s.suber i with shouldExitASyncThread := true })
      (h : Still s s')
  /-- `unsubEVT` frees a slot. -/
  | freed {f i rest} (hf : s.frames t = .unsub f :: rest) (hst : s.slotStopped t f i)
      (hc : s'.ctx.pEvtSubers = Function.update s.ctx.pEvtSubers i (s.suber i).freed) (h : Still s s')
  /-- `unsubEVT(NULL)` passes a slot without identifiers. -/
  | kept {f i rest} (hf : s.frames t = .unsub f :: rest) (hst : s.slotStopped t f i)
      (hids : (s.suber i).args.pEvtIDs = none)
      (hc : s'.ctx.pEvtSubers =
        Function.update s.ctx.pEvtSubers i { s.suber i with asyncThreadID := none })
      (h : Still s s')
  /-- A visit finds the queue full. -/
  | started {f i rest x} (hf : s.frames t = .post f :: rest) (hp : f.pc = .push i)
      (hx : Started s i x) (hc : s'.ctx.pEvtSubers = Function.update s.ctx.pEvtSubers i x)
      (hb : s'.base = (s.withThread i).base) (hn : s'.nextTid = (s.withThread i).nextTid) (h : Still s s')
  /-- A visit pushes the event. -/
  | accepted {f i rest} (hf : s.frames t = .post f :: rest) (hp : f.pc = .push i)
      (hr : (s.suber i).evtQueue.hasRoom = true)
      (hc : s'.ctx.pEvtSubers = Function.update s.ctx.pEvtSubers i
        { s.suber i with asyncThreadID := some ((s.suber i).asyncThreadID.getD s.nextTid),
                         evtQueue := (s.suber i).evtQueue.push (s.desc t f) })
      (hb : s'.base = (s.withThread i).base) (hn : s'.nextTid = (s.withThread i).nextTid)
      (hs : s'.sid = s.sid) (hg : s'.nextSid = s.nextSid)
      (hl : flow s'.log = flow s.log ++ [.accept (s.sid i) t f.isReplay (s.desc t f)])
      (ht : ∀ u, (s'.base u).taken = (s.base u).taken)
  /-- The async thread takes the next event. -/
  | took {i g pc} (hf : s.frames t = []) (hb : s.base t = .async i g pc) (hpc : pc = .top ∨ pc = .woken)
      (he : (s.suber i).evtQueue.isEmpty = false)
      (hc : s'.ctx.pEvtSubers = Function.update s.ctx.pEvtSubers i
        { s.suber i with evtQueue := (s.suber i).evtQueue.pop })
      (hs : s'.sid = s.sid) (hn : s'.nextSid = s.nextSid) (hl : flow s'.log = flow s.log)
      (hb' : s'.base = Function.update s.base t (.async i g (.call (s.suber i).evtQueue.front)))
  /-- The async thread calls the callback. -/
  | called {i g d} (hf : s.frames t = []) (hb : s.base t = .async i g (.call d)) (ho : (s.suber i).occupied)
      (hc : s'.ctx.pEvtSubers = s.ctx.pEvtSubers) (hs : s'.sid = s.sid) (hn : s'.nextSid = s.nextSid)
      (hl : flow s'.log = flow s.log ++ [.deliver (s.sid i) t d])
      (hb' : s'.base = Function.update s.base t (.async i g (.inCb d)))
  /-- `postEVT` puts the event into the cache of its async thread. -/
  | stored {f i rest} (hf : s.frames t = .post f :: rest) (hp : f.pc = .lock) (ht : s.tls t = some i)
      (hr : (s.suber i).evtCached.hasRoom = true)
      (hc : s'.ctx.pEvtSubers = Function.update s.ctx.pEvtSubers i
        { s.suber i with evtCached := (s.suber i).evtCached.push f.pEvtDesc })
      (hs : s'.sid = s.sid) (hn : s'.nextSid = s.nextSid)
      (hl : flow s'.log = flow s.log ++ [.store (s.sid i) s.nextSid f.pEvtDesc])
      (hb : ∀ u, (s'.base u).taken = (s.base u).taken)
  /-- The drain loop retires the oldest cached event. -/
  | retired {i g p r} (hf : s.frames t = []) (hb : s.base t = .async i g (.drained p r))
      (hr : r = .success ∨ ((s.suber i).evtCached.cells p.cell).mayDrop = true)
      (hc : s'.ctx.pEvtSubers = Function.update s.ctx.pEvtSubers i
        { s.suber i with evtCached := (s.suber i).evtCached.pop })
      (hs : s'.sid = s.sid) (hn : s'.nextSid = s.nextSid)
      (hl : flow s'.log = flow s.log ++ [.retire (s.sid i) t])
      (hb' : ∀ u, (s'.base u).taken = (s.base u).taken)

/-- The log entry of a freed slot moves no event. -/
theorem flow_freeSlot : flow (s.freeSlot t i).log = flow s.log := by
  rw [State.freeSlot, flow_append]
  split <;> simp [flow, Obs.isFlow]

/-- What a visit leaves of the slot it stands at. -/
theorem started_withThread : Started s i ((s.withThread i).suber i) := by
  rw [withThread_suber]
  exact ⟨rfl, rfl, rfl, rfl, rfl⟩

theorem Trans.effect (hT : ThreadInv s) (hA : AllocInv s) (h : Trans s t a s') : Effect s s' t := by
  cases h
  case subNoSlot =>
    exact .quiet hA.allocSubers ⟨rfl, rfl, by simp [flow, Obs.isFlow], fun _ => rfl⟩
  case subFill env f rest m i hf hm hc hi =>
    have hfree := Ctx.freeSuberIdx_eq_some hi
    rw [Ctx.allocSubers_eq] at hfree
    simp only [hA.allocSubers] at hfree
    refine .filled (i := i) (x := if env.malloc then .ofArgsCopied f.pEvtSubArgs else .ofArgs f.pEvtSubArgs)
      (by simpa using hf) hfree.1 hfree.2 ?_ ?_ (by simp [hA.allocSubers]) rfl rfl
      (by simp [flow, Obs.isFlow]) rfl
    · cases env.malloc <;> exact ⟨rfl, rfl, rfl, rfl⟩
    · cases env.malloc <;> rfl
  case unsubSetFlag hf hp _ => exact .flagged hf hp (by simp) rfl ⟨rfl, rfl, rfl, fun _ => rfl⟩
  case unsubFreeNext hf hs _ _ => exact .freed hf hs rfl ⟨rfl, rfl, flow_freeSlot, fun _ => rfl⟩
  case unsubKeepNext hf hs _ hids => exact .kept hf hs hids rfl ⟨rfl, rfl, rfl, fun _ => rfl⟩
  case unsubFreeDone i k hf hs _ =>
    refine .freed hf hs rfl ⟨rfl, rfl, ?_, fun _ => rfl⟩
    simp only [State.ret_eq, State.setCtx, flow_append, flow_freeSlot]
    simp [flow, Obs.isFlow]
  case unsubSignal hw | postSignal hw | postRetrySignal hw =>
    have ht := fun u => hw.taken (u := u)
    obtain ⟨b, rfl, -⟩ := hw.eq
    exact .quiet rfl ⟨rfl, rfl, rfl, ht⟩
  case postCache hf hp _ _ _ ht hr =>
    exact .stored hf hp ht hr (by simp) (by simp) (by simp) (by simp [flow, Obs.isFlow, List.filter_cons])
      fun u => retPost_taken ..
  case postAccept hf hp _ hr =>
    exact .accepted hf hp hr (by simp [withThread_suber]) rfl rfl withThread_sid (by simp)
      (by simp [flow, Obs.isFlow])
      fun u => withThread_taken hT
  case postFull hf hp _ _ _ | postRetry hf hp _ _ _ _ =>
    exact .started hf hp started_withThread (by simp [withThread_suber]) rfl rfl
      ⟨withThread_sid, by simp, by simp, fun u => withThread_taken hT⟩
  case haltPush i hf hp =>
    have hx := started_withThread (s := s) (i := i)
    exact .started (x := { (s.withThread i).suber i with mutex := some t }) hf hp
      ⟨hx.args, hx.flag, hx.asyncThreadID, hx.evtQueue, hx.evtCached⟩ (by simp) rfl rfl
      ⟨withThread_sid, by simp, by simp, fun u => withThread_taken hT⟩
  case asyncTake hf hb hp _ he => exact .took hf hb hp he rfl rfl rfl rfl rfl
  case asyncCall hf hb ho =>
    exact .called hf hb ho rfl rfl rfl (by simp [flow, Obs.isFlow]) rfl
  case asyncRetire hf hb =>
    exact .retired hf hb (.inl rfl) rfl rfl rfl (by simp [flow, Obs.isFlow])
      fun u => update_taken (by simp [hb, Base.taken])
  case haltRetire hf hb _ hd =>
    exact .retired hf hb (.inr hd) rfl rfl rfl (by simp [flow, Obs.isFlow]) fun _ => rfl
  case postNotFound | postBusy | postCacheFull =>
    exact .quiet (by simp) ⟨by simp, by simp, by simp [flow, Obs.isFlow], fun u => retPost_taken ..⟩
  case postEnd =>
    exact .quiet (by simp) ⟨by simp, by simp, by simp [flow, Obs.isFlow], fun u => retPost_taken ..⟩
  case asyncStart hf hb | asyncWake hf hb | cbRetAsync hf hb | asyncDrain hf hb _ |
      asyncReplay hf hb _ | asyncTop hf hb _ | asyncRedo hf hb _ _ =>
    exact .quiet rfl ⟨rfl, rfl, by simp [flow, Obs.isFlow], fun u =>
      update_taken (by simp [hb, Base.taken])⟩
  case asyncExit hf hb hp _ _ _ | asyncWait hf hb hp _ _ _ =>
    exact .quiet rfl ⟨rfl, rfl, rfl, fun u =>
      update_taken (by rcases hp with rfl | rfl <;> simp [hb, Base.taken])⟩
  all_goals exact .quiet rfl ⟨rfl, rfl, by simp [flow, Obs.isFlow], fun _ => rfl⟩

end PlatIF.Ioc
