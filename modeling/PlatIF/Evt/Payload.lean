import PlatIF.Evt.Dispatch
import PlatIF.Evt.Fifo

/-!
# What a dispatch sees

The processor thread gives up its slot of the ring before it dispatches, and the dispatch keeps a pointer into the
ring.  The slot is written again by the post that fills the queue.

* `QueueStep` — what a step does to a queue;
* `QueueInv` — every queue is a FIFO of what it accepted, and a dispatch has the slot before the head;
* `payload_integrity` — every look of dispatch `k` finds the descriptor accepted as number `k`, in every run in which
  no post writes the slot of a dispatch that still looks at it;
* `post_overwrites` — such a post changes what the dispatch finds;
* `payload_overwritten` — a run of the code in which a callback is handed another event.
-/

namespace PlatIF.Evt

variable {abi : Abi} {s s' : State abi} {t : Thread} {a : Act abi} {env : Env} {clients q slot k : ℕ}
  {pc pc' : DispatchPc} {ok : State abi → Thread × Act abi → Prop}

/-! ### The effect of a step on a queue -/

/-- What a step does to queue `q`. -/
inductive QueueStep (s s' : State abi) (t : Thread) (a : Act abi) (q : ℕ) : Prop
  | same (hi : (s'.queues q).mutexInit = (s.queues q).mutexInit) (hq : s'.queue q = s.queue q)
      (ha : s'.accepted q = s.accepted q) (ht : s'.taken q = s.taken q)
  | init (hi : (s.queues q).mutexInit = false) (hi' : (s'.queues q).mutexInit = true)
      (hq : s'.queue q = .init s.manger.mayEvtDescQueueNumMax)
      (ha : s'.accepted q = s.accepted q) (ht : s'.taken q = s.taken q)
  | post {env : Env} {id : EvtOperID abi} {d : EvtDesc abi} (hrun : a = .run env)
      (hc : s.calls t = some (.postEvtSRT id (.own d) (.lock (some q)))) (hi : (s.queues q).mutexInit = true)
      (hi' : (s'.queues q).mutexInit = true) (hfull : (s.queue q).isFull = false)
      (hq : s'.queue q = ((s.queue q).post id d).2.1)
      (ha : s'.accepted q = s.accepted q ++ [((s.queue q).post id d).2.2]) (ht : s'.taken q = s.taken q)
  | pass {env : Env} {id : EvtOperID abi} {d : EvtDesc abi} {slot k row num : ℕ} (hrun : a = .run env)
      (hc : s.calls t = some (.postEvtSRT id .received (.lock (some q)))) (hi : (s.queues q).mutexInit = true)
      (hi' : (s'.queues q).mutexInit = true) (hfull : (s.queue q).isFull = false)
      (hp : s.procer q = .dispatch slot k (.inCb row num))
      (hq : s'.queue q = ((s.queue q).post id d).2.1.writeSlot slot ((s.queue q).post id d).2.2)
      (ha : s'.accepted q = s.accepted q ++ [((s.queue q).post id d).2.2]) (ht : s'.taken q = s.taken q)
  | take (hp : s'.procer q = .dispatch (s.queue q).take.1 (s.taken q).length .rdlock)
      (hi : (s.queues q).mutexInit = true) (hi' : (s'.queues q).mutexInit = true)
      (hn : (s.queue q).curEvtNum ≠ 0) (hq : s'.queue q = (s.queue q).take.2) (ha : s'.accepted q = s.accepted q)
      (ht : s'.taken q = s.taken q ++ [(s.queue q).evtDescQueue (s.queue q).take.1])

/-- A table step logs only returns and registrations. -/
theorem TableStep.log {c : Call abi} {m : Manger abi} {n : ℕ} {c' : Option (Call abi)} {os : List (Obs abi)}
    (h : TableStep s t env c m n c' os) (q : ℕ) :
    acceptedIn q os = [] ∧ takenIn q os = [] ∧ readsIn q os = [] ∧ dispatchedIn q os = [] := by
  cases h with
  | @reg args r id m hm => cases id <;> exact ⟨rfl, rfl, rfl, rfl⟩
  | _ => exact ⟨rfl, rfl, rfl, rfl⟩

theorem setQueue_queue_ne (s : State abi) {q p : ℕ} (x : EvtQueue abi) (h : p ≠ q) :
    (s.setQueue q x).queue p = s.queue p := by
  simp [State.queue, Function.update_of_ne h]

/-- A callback hands on the descriptor in its own queue. -/
theorem argDesc_cases {arg : PostArg abi} {d : EvtDesc abi} {place : Option (ℕ × ℕ)}
    (h : s.argDesc t arg = some (d, place)) :
    arg = .own d ∧ place = none ∨
      ∃ p slot k pc, arg = .received ∧ t = .procer p ∧ s.procer p = .dispatch slot k pc ∧ place = some (p, slot) := by
  unfold State.argDesc at h
  split at h
  · simp only [Option.some.injEq, Prod.mk.injEq] at h
    exact .inl ⟨by rw [h.1], h.2.symm⟩
  · split at h
    · rename_i slot k pc hp
      split at h
      · simp at h
      · simp only [Option.some.injEq, Prod.mk.injEq] at h
        exact .inr ⟨_, slot, k, pc, rfl, rfl, hp, h.2.symm⟩
    · simp at h
  · simp at h

/-- The entries that the step adds to the log say nothing of `q`. -/
theorem QueueStep.of_log {os : List (Obs abi)} (hi : (s'.queues q).mutexInit = (s.queues q).mutexInit)
    (hq : s'.queue q = s.queue q)
    (hl : s'.log = s.log ++ os) (ha : acceptedIn q os = []) (ht : takenIn q os = []) : QueueStep s s' t a q :=
  .same hi hq (by rw [State.accepted, hl, acceptedIn_append, ha, List.append_nil])
    (by rw [State.taken, hl, takenIn_append, ht, List.append_nil])

theorem LifeStep.queueStep {c : Call abi} (hL : LiveInv s) (hc : s.calls t = some c) (h : LifeStep s t c s') (q : ℕ) :
    QueueStep s s' t a q := by
  have hP := hL.phase t c hc
  cases h with
  | enable =>
    by_cases hq : q = s.nextQueue
    · subst hq
      obtain ⟨-, hz⟩ := hL.fresh _ le_rfl
      exact .same (by simp [hz]) (by simp [hz]) rfl rfl
    · exact .same (by simp [Function.update_of_ne hq]) (by simp [Function.update_of_ne hq]) rfl rfl
  | @initMutex p =>
    by_cases hq : q = p
    · subst hq
      obtain ⟨-, -, -, hz⟩ := hP
      exact .init (by rw [hz]; rfl) (by simp) (by simp [hz, QueueObj.zero, EvtQueue.init]) rfl rfl
    · exact .same (by simp [Function.update_of_ne hq]) (by simp [Function.update_of_ne hq]) rfl rfl
  | @initCond p | @destroyMutex p | @destroyCond p | @free p =>
    by_cases hq : q = p
    · subst hq
      exact .same (by simp) (by simp) rfl rfl
    · exact .same (by simp [Function.update_of_ne hq]) (by simp [Function.update_of_ne hq]) rfl rfl
  | create | disable | clear => exact .same rfl rfl rfl rfl
  | enabled | disabled => exact .of_log rfl rfl rfl rfl rfl

theorem Trans.queueStep (hL : LiveInv s) (h : Trans s t a s') (q : ℕ) : QueueStep s s' t a q := by
  cases h with
  | call | halt => exact .same rfl rfl rfl rfl
  | table ha hc htab =>
    obtain ⟨h1, h2, -⟩ := htab.log q
    exact .of_log rfl rfl rfl h1 h2
  | life ha hc hl => exact hl.queueStep hL hc q
  | cancelJoin | wait | wake | cancelCb => exact .same rfl rfl rfl rfl
  | @cancelWait p =>
    by_cases hq : q = p
    · subst hq
      exact .same (by simp) (by simp [State.queue]) rfl rfl
    · exact .same (by simp [Function.update_of_ne hq]) (by simp [State.queue, Function.update_of_ne hq]) rfl rfl
  | @post env id arg p d place ha hc hl hi hm hfull hd =>
    have hinit : ∀ x d', (((s.setQueue p x).writeBack place d').queues q).mutexInit = (s.queues q).mutexInit :=
      fun x d' => ((setQueue_sameLife ..).trans (writeBack_sameLife ..)).mutexInit
    have hi := (QueueObj.mutexReady_iff.mp hi).1
    by_cases hq : q = p
    · subst hq
      rcases argDesc_cases hd with ⟨rfl, rfl⟩ | ⟨p, slot, k, pc, rfl, rfl, hp, rfl⟩
      · exact .post ha hc hi ((hinit _ ((s.queue q).post id d).2.2).trans hi) hfull
          (by simp [State.writeBack, State.queue]) (by simp [State.writeBack, acceptedIn])
          (by simp [State.writeBack, takenIn])
      · obtain rfl := (hL.locking _ _ _ _ hc).2 p rfl
        have hcb := hL.inCb q (by simp [hc])
        have hpc : ∃ row num, pc = .inCb row num := by
          rw [hp] at hcb
          cases pc <;> simp_all [ProcerPc.isInCb]
        obtain ⟨row, num, rfl⟩ := hpc
        exact .pass (d := d) ha hc hi ((hinit ..).trans hi) hfull hp (by simp [State.writeBack, State.queue]) (by simp [acceptedIn])
          (by simp [takenIn])
    · have hlog : s.accepted q ++ acceptedIn q [.accept p t ((s.queue p).post id d).2.2] = s.accepted q := by
        simp [acceptedIn, Ne.symm hq]
      refine .same (hinit ..) ?_ (by simpa using hlog) (by simp [takenIn])
      rcases argDesc_cases hd with ⟨rfl, rfl⟩ | ⟨p', slot, k, pc, rfl, rfl, hp, rfl⟩
      · exact setQueue_queue_ne s _ hq
      · obtain rfl := (hL.locking _ _ _ _ hc).2 p' rfl
        exact (setQueue_queue_ne _ _ hq).trans (setQueue_queue_ne s _ hq)
  | signal => exact .same (by simp) (by simp [State.queue]) (by simp [acceptedIn]) (by simp [takenIn])
  | @take p ht hc hp hl hm hn =>
    by_cases hq : q = p
    · subst hq
      have hi := (hL.live q (by rcases hp with hp | hp <;> simp [hp, ProcerPc.alive])).2.mutexInit
      exact .take (by simp) hi (by simpa using hi) hn (by simp [State.queue]) (by simp [acceptedIn]) (by simp [takenIn])
    · exact .of_log (by simp [Function.update_of_ne hq]) (by simp [Function.update_of_ne hq]) rfl rfl
        (by simp [takenIn, Ne.symm hq])
  | rdlock | move => exact .same rfl rfl rfl rfl
  | noTable | endDispatch | compare | callSuber | cbRead => exact .of_log rfl rfl rfl rfl rfl

/-- What the steps of the other processors leave alone: the processor of `q`, its queue and its part of the log. -/
structure QueueFrame (s s' : State abi) (q : ℕ) : Prop where
  procer : s'.procer q = s.procer q
  queues : s'.queues q = s.queues q
  accepted : s'.accepted q = s.accepted q
  taken : s'.taken q = s.taken q
  dispatched : s'.dispatched q = s.dispatched q
  reader : .procer q ∈ s'.subReaders ↔ .procer q ∈ s.subReaders

/-- The entries that a step adds to the log say nothing of `q`. -/
theorem QueueFrame.of_log {os : List (Obs abi)} (hp : s'.procer q = s.procer q) (hq : s'.queues q = s.queues q)
    (hl : s'.log = s.log ++ os) (hr : .procer q ∈ s'.subReaders ↔ .procer q ∈ s.subReaders)
    (ha : acceptedIn q os = []) (ht : takenIn q os = []) (hd : dispatchedIn q os = []) : QueueFrame s s' q where
  procer := hp
  queues := hq
  accepted := by rw [State.accepted, hl, acceptedIn_append, ha, List.append_nil]
  taken := by rw [State.taken, hl, takenIn_append, ht, List.append_nil]
  dispatched := by rw [State.dispatched, hl, dispatchedIn_append, hd, List.append_nil]
  reader := hr

/-- The loop of one processor leaves the queue of another alone. -/
theorem Trans.queueFrame {p : ℕ} (h : Trans s (.procer p) a s') (hc : s.calls (.procer p) = none) (hq : q ≠ p) :
    QueueFrame s s' q := by
  have hne : p ≠ q := Ne.symm hq
  have hw : ∀ {p'}, Thread.procer p = .procer p' → p' = p := fun h => (Thread.procer.inj h).symm
  cases h with
  | call | halt => exact ⟨rfl, rfl, rfl, rfl, rfl, .rfl⟩
  | table ha hc' | life ha hc' | cancelJoin ha ht hc' | post ha hc' | signal ha hc' => simp [hc] at hc'
  | wait ht | wake ht | cancelCb ha ht | move ht =>
    obtain rfl := hw ht
    exact ⟨Function.update_of_ne hq _ _, rfl, rfl, rfl, rfl, .rfl⟩
  | cancelWait ha ht =>
    obtain rfl := hw ht
    exact ⟨Function.update_of_ne hq _ _, Function.update_of_ne hq _ _, rfl, rfl, rfl, .rfl⟩
  | take ht =>
    obtain rfl := hw ht
    exact .of_log (Function.update_of_ne hq _ _) (Function.update_of_ne hq _ _) rfl .rfl rfl (by simp [takenIn, hne])
      rfl
  | rdlock ht =>
    obtain rfl := hw ht
    exact ⟨Function.update_of_ne hq _ _, rfl, rfl, rfl, rfl, by simp [hq]⟩
  | endDispatch ht =>
    obtain rfl := hw ht
    exact .of_log (Function.update_of_ne hq _ _) rfl rfl (List.mem_erase_of_ne (by simpa using hq)) rfl rfl
      (by simp [dispatchedIn, hne])
  | noTable ht =>
    obtain rfl := hw ht
    exact .of_log (Function.update_of_ne hq _ _) rfl rfl .rfl rfl rfl (by simp [dispatchedIn, hne])
  | compare ht | callSuber ht =>
    obtain rfl := hw ht
    exact .of_log (Function.update_of_ne hq _ _) rfl rfl .rfl rfl rfl rfl
  | cbRead ht => exact .of_log rfl rfl rfl .rfl rfl rfl rfl

/-- What a step does to the looks at the descriptors of queue `q`. -/
theorem Trans.reads (h : Trans s t a s') (q : ℕ) :
    s'.reads q = s.reads q ∨
      ∃ slot k pc, s.procer q = .dispatch slot k pc ∧ s.manger.mayRead pc = true ∧
        s'.reads q = s.reads q ++ [(k, (s.queue q).evtDescQueue slot)] := by
  cases h with
  | call | halt | cancelJoin | wait | wake | cancelCb | cancelWait => exact .inl rfl
  | life ha hc hl => exact .inl (hl.log_keeps (fun t r => readsIn_ret q t r) (readsIn_append q))
  | table ha hc htab => exact .inl ((readsIn_append ..).trans (by rw [(htab.log q).2.2.1, List.append_nil]))
  | rdlock | move => exact .inl rfl
  | take | noTable | endDispatch =>
    exact .inl ((readsIn_append ..).trans (List.append_nil _))
  | post | signal => exact .inl (by simp [readsIn])
  | @compare p slot k row num r pc pc' ht hc hp hl hr hm =>
    by_cases hq : q = p
    · subst hq
      exact .inr ⟨slot, k, pc, hp, Manger.mayRead_compare hr hm, by simp [readsIn]⟩
    · exact .inl (by simp [readsIn, Ne.symm hq])
  | @callSuber p slot k row num r args ht hc hp =>
    by_cases hq : q = p
    · subst hq
      exact .inr ⟨slot, k, _, hp, rfl, by simp [readsIn]⟩
    · exact .inl (by simp [readsIn, Ne.symm hq])
  | @cbRead p slot k row num ht hc hp =>
    by_cases hq : q = p
    · subst hq
      exact .inr ⟨slot, k, _, hp, rfl, by simp [readsIn]⟩
    · exact .inl (by simp [readsIn, Ne.symm hq])

/-- A dispatch goes on with the same descriptor, unless it starts with a take. -/
theorem Trans.dispatch (hL : LiveInv s) (hR : ReaderInv s) (h : Trans s t a s')
    (hp : s'.procer q = .dispatch slot k pc') :
    (∃ pc, s.procer q = .dispatch slot k pc ∧ (s'.manger.mayRead pc' = true → s.manger.mayRead pc = true)) ∨
      s'.taken q ≠ s.taken q := by
  by_cases ht : t = .procer q
  · subst ht
    cases h with
    | call | cbRead | halt => exact .inl ⟨pc', hp, id⟩
    | life ha hc hl => exact .inl ⟨pc', hl.dispatch hp, fun hm => by rwa [hl.tables] at hm⟩
    | table ha hc htab => exact .inl ⟨pc', hp, htab.mayRead hL hR hp⟩
    | signal => exact .inl ⟨pc', dispatch_of_condSignal hp, fun hm => by simpa using hm⟩
    | post => exact .inl ⟨pc', by simpa using hp, fun hm => by simpa using hm⟩
    | cancelJoin ha ht' | wait ht' | wake ht' | cancelWait ha ht' | noTable ht' | endDispatch ht' | cancelCb ha ht' =>
      obtain rfl := Thread.procer.inj ht'
      simp [State.endDispatch] at hp
    | take ht' hc hp' hl hm hn =>
      obtain rfl := Thread.procer.inj ht'
      exact .inr (by simp [takenIn])
    | rdlock ht' hc hp' | callSuber ht' hc hp' =>
      obtain rfl := Thread.procer.inj ht'
      simp only [State.goto, State.setProcer, State.obs, Function.update_self, ProcerPc.dispatch.injEq] at hp
      obtain ⟨rfl, rfl, -⟩ := hp
      exact .inl ⟨_, hp', fun _ => rfl⟩
    | move ht' hc hp' hm =>
      obtain rfl := Thread.procer.inj ht'
      simp only [State.goto, State.setProcer, Function.update_self, ProcerPc.dispatch.injEq] at hp
      obtain ⟨rfl, rfl, rfl⟩ := hp
      exact .inl ⟨_, hp', Manger.mayRead_move hm⟩
    | compare ht' hc hp' hl hr hm =>
      obtain rfl := Thread.procer.inj ht'
      simp only [State.goto, State.setProcer, State.obs, Function.update_self, ProcerPc.dispatch.injEq] at hp
      obtain ⟨rfl, rfl, rfl⟩ := hp
      exact .inl ⟨_, hp', fun _ => Manger.mayRead_compare hr hm⟩
  · exact .inl ⟨pc', h.dispatch_ne ht hp, h.mayRead_ne hL hR ht hp⟩

/-! ### Every queue is a FIFO -/

/-- An accepted post, of a descriptor of the caller's own or of the one in the slot before the head. -/
theorem EvtQueue.Fifo.accept {x : EvtQueue abi} {r : IndexRing (EvtDesc abi)} {accepted taken : List (EvtDesc abi)}
    (h : x.Fifo r accepted taken) (hfull : x.isFull = false) (id : EvtOperID abi) (d : EvtDesc abi)
    {x' : EvtQueue abi}
    (hx : x' = (x.post id d).2.1 ∨ x' = (x.post id d).2.1.writeSlot r.freed (x.post id d).2.2) :
    ∃ r', x'.Fifo r' (accepted ++ [(x.post id d).2.2]) taken ∧ r'.freed = r.freed := by
  have hpost := h.post hfull id d
  rcases hx with rfl | rfl
  · exact ⟨_, hpost, rfl⟩
  · by_cases hlast : r.num + 1 = r.cap
    · -- the post itself wrote the slot, with the same descriptor
      have hcell : (x.post id d).2.1.evtDescQueue r.freed = (x.post id d).2.2 := by
        rw [hpost.repr.cells]
        exact r.push_cells_freed_of_full _ _ hlast
      have hsame : (x.post id d).2.1.writeSlot r.freed (x.post id d).2.2 = (x.post id d).2.1 := by
        conv_lhs => rw [← hcell]
        simp [EvtQueue.writeSlot]
      rw [hsame]
      exact ⟨_, hpost, rfl⟩
    · have hroom := h.repr.hasRoom hfull
      exact ⟨_, hpost.writeFreed (lt_of_le_of_ne (Nat.succ_le_of_lt hroom) hlast) _, rfl⟩

/-- A queue is a FIFO of what it accepted and gave out, and a dispatch has the slot that was given up last. -/
def QueueInv (s : State abi) : Prop :=
  ∀ q, (s.queues q).mutexInit = true → ∃ r, (s.queue q).Fifo r (s.accepted q) (s.taken q) ∧
    ∀ slot k pc, s.procer q = .dispatch slot k pc → slot = r.freed ∧ k + 1 = (s.taken q).length

/-- Nothing happened to a queue that was not initialized. -/
def Untouched (s : State abi) : Prop :=
  ∀ q, (s.queues q).mutexInit = false → s.queue q = .init 0 ∧ s.accepted q = [] ∧ s.taken q = [] ∧ s.reads q = []

/-- There is no dispatch of a queue that was not initialized. -/
theorem LiveInv.no_dispatch (hL : LiveInv s) (hi : (s.queues q).mutexInit = false) :
    s.procer q ≠ .dispatch slot k pc := fun hp => by
  simp [(hL.live q (by simp [hp, ProcerPc.alive])).2.mutexInit] at hi

theorem untouched_trans (hL : LiveInv s) (hU : Untouched s) (h : Trans s t a s') : Untouched s' := by
  intro q hq
  cases h.queueStep hL q with
  | same hi hq' ha ht =>
    obtain ⟨h1, h2, h3, h4⟩ := hU q (hi ▸ hq)
    refine ⟨hq'.trans h1, ha.trans h2, ht.trans h3, ?_⟩
    rcases h.reads q with hr | ⟨slot, k, pc, hp, -⟩
    · exact hr.trans h4
    · exact absurd hp (hL.no_dispatch (hi ▸ hq))
  | init hi hi' => simp [hi'] at hq
  | post hrun hc hi hi' | pass hrun hc hi hi' | take hp hi hi' => simp [hi'] at hq

theorem queueInv_trans (hL : LiveInv s) (hR : ReaderInv s) (hU : Untouched s) (hI : QueueInv s)
    (h : Trans s t a s') : QueueInv s' := by
  intro q hq
  -- without a take, a dispatch keeps its slot and its number
  have hkeep : ∀ {r r' : IndexRing (EvtDesc abi)}, r'.freed = r.freed → s'.taken q = s.taken q →
      (∀ slot k pc, s.procer q = .dispatch slot k pc → slot = r.freed ∧ k + 1 = (s.taken q).length) →
      ∀ slot k pc, s'.procer q = .dispatch slot k pc → slot = r'.freed ∧ k + 1 = (s'.taken q).length := by
    intro r r' hf ht hslot slot k pc hp
    rcases h.dispatch hL hR hp with ⟨pc₀, hp₀, -⟩ | hne
    · exact ⟨(hslot _ _ _ hp₀).1.trans hf.symm, ht ▸ (hslot _ _ _ hp₀).2⟩
    · exact absurd ht hne
  cases h.queueStep hL q with
  | init hi hi' hq' ha ht =>
    obtain ⟨-, h2, h3, -⟩ := hU q hi
    obtain ⟨r, hfifo, -⟩ := @EvtQueue.Fifo.init abi _ hL.life.depth
    refine ⟨r, ?_, hkeep (r := r) rfl ht fun slot k pc hp => absurd hp (hL.no_dispatch hi)⟩
    rw [hq', ha, ht, h2, h3]
    exact hfifo
  | same hi hq' ha ht =>
    obtain ⟨r, hfifo, hslot⟩ := hI q (hi ▸ hq)
    exact ⟨r, by rw [hq', ha, ht]; exact hfifo, hkeep rfl ht hslot⟩
  | post hrun hc hi hi' hfull hq' ha ht =>
    obtain ⟨r, hfifo, hslot⟩ := hI q hi
    obtain ⟨r', hfifo', hf⟩ := hfifo.accept hfull _ _ (.inl hq')
    exact ⟨r', by rw [ha, ht]; exact hfifo', hkeep hf ht hslot⟩
  | pass hrun hc hi hi' hfull hp hq' ha ht =>
    obtain ⟨r, hfifo, hslot⟩ := hI q hi
    obtain ⟨r', hfifo', hf⟩ := hfifo.accept hfull _ _ (.inr ((hslot _ _ _ hp).1 ▸ hq'))
    exact ⟨r', by rw [ha, ht]; exact hfifo', hkeep hf ht hslot⟩
  | take hp hi hi' hne hq' ha ht =>
    obtain ⟨r, hfifo, -⟩ := hI q hi
    obtain ⟨hslot, -, -⟩ := hfifo.repr.take hne
    refine ⟨r.pop, by rw [hq', ha, ht]; exact (hfifo.take hne).1, fun slot k pc hp' => ?_⟩
    rw [hp, ProcerPc.dispatch.injEq] at hp'
    obtain ⟨rfl, rfl, -⟩ := hp'
    exact ⟨hslot.trans r.pop_freed.symm, by rw [ht, List.length_append, List.length_singleton]⟩

theorem queue_reach (h : Reach ok clients s) : Untouched s ∧ QueueInv s := by
  refine h.induction (P := fun s => Untouched s ∧ QueueInv s) ⟨fun q _ => ⟨rfl, rfl, rfl, rfl⟩, fun q hq => ?_⟩
    fun s s' t a hr hP _ _ h => ?_
  · simp [State.init, QueueObj.zero] at hq
  · obtain ⟨hU, hI⟩ := hP
    have hL := liveInv_reach hr
    exact ⟨untouched_trans hL hU h, queueInv_trans hL (readerInv_reach hr) hU hI h⟩

/-! ### The slot of a dispatch -/

/-- The step is not a post that is accepted into the slot of a dispatch that still looks there: into the last free
place of the queue, or with the very descriptor that the callback was handed. -/
def State.keepsSlot (s : State abi) (x : Thread × Act abi) : Bool :=
  match s.calls x.1, x.2 with
  | some (.postEvtSRT _ arg (.lock (some q))), .run _ =>
    (s.queue q).isFull ||
      match arg with
      | .own _ => !s.mayRead q || decide ((s.queue q).curEvtNum.toNat + 1 ≠ (s.queue q).evtDescNumInQueue.toNat)
      | .received => false
  | _, _ => true

/-- What a dispatch still looks at is what was accepted, and so is what was seen. -/
structure SlotInv (s : State abi) (q : ℕ) : Prop where
  slot : ∀ slot k pc, s.procer q = .dispatch slot k pc → s.manger.mayRead pc = true →
    (s.accepted q)[k]? = some ((s.queue q).evtDescQueue slot)
  reads : ∀ k d, (k, d) ∈ s.reads q → (s.accepted q)[k]? = some d

/-- Accepted descriptors stay accepted. -/
theorem QueueStep.accepted_isPrefix (h : QueueStep s s' t a q) : s.accepted q <+: s'.accepted q := by
  cases h with
  | same hi hq ha ht | init hi hi' hq ha ht | take hp hi hi' hn hq ha ht => rw [ha]
  | post hrun hc hi hi' hfull hq ha ht | pass hrun hc hi hi' hfull hp hq ha ht =>
    rw [ha]
    exact List.prefix_append ..

theorem getElem?_of_prefix {α : Type*} {l l' : List α} {k : ℕ} {d : α} (h : l <+: l') (hd : l[k]? = some d) :
    l'[k]? = some d := by
  obtain ⟨r, rfl⟩ := h
  rw [List.getElem?_append_left (List.getElem?_eq_some_iff.mp hd).1]
  exact hd

/-- An accepted post with a descriptor of the caller's own, other than the one that fills the queue, leaves the slot
of the dispatch alone. -/
theorem EvtQueue.Fifo.post_freed {x : EvtQueue abi} {r : IndexRing (EvtDesc abi)} {accepted taken : List (EvtDesc abi)}
    (h : x.Fifo r accepted taken) (hfull : x.isFull = false) (id : EvtOperID abi) (d : EvtDesc abi)
    (hne : x.curEvtNum.toNat + 1 ≠ x.evtDescNumInQueue.toNat) :
    (x.post id d).2.1.evtDescQueue r.freed = x.evtDescQueue r.freed := by
  rw [h.repr.num, h.repr.cap] at hne
  rw [(h.post hfull id d).repr.cells, h.repr.cells]
  exact r.push_cells_freed _ _ hne

theorem slotInv_trans (hL : LiveInv s) (hR : ReaderInv s) (hI : QueueInv s)
    (hS : SlotInv s q) (hok : s.keepsSlot (t, a) = true) (h : Trans s t a s') : SlotInv s' q := by
  have hpre := (h.queueStep hL q).accepted_isPrefix
  refine ⟨fun slot k pc' hp hm => ?_, fun k d hd => ?_⟩
  · -- without a take, the dispatch looked before; its slot must not have been written
    have hold : s'.taken q = s.taken q →
        ((∀ pc, s.procer q = .dispatch slot k pc → s.manger.mayRead pc = true →
          (s'.queue q).evtDescQueue slot = (s.queue q).evtDescQueue slot) →
        (s'.accepted q)[k]? = some ((s'.queue q).evtDescQueue slot)) := by
      intro ht hcell
      rcases h.dispatch hL hR hp with ⟨pc, hp₀, hm₀⟩ | hne
      · rw [hcell pc hp₀ (hm₀ hm)]
        exact getElem?_of_prefix hpre (hS.slot _ _ _ hp₀ (hm₀ hm))
      · exact absurd ht hne
    cases h.queueStep hL q with
    | same hi hq ha ht => exact hold ht fun _ _ _ => by rw [hq]
    | init hi hi' hq ha ht => exact hold ht fun pc hp₀ => absurd hp₀ (hL.no_dispatch hi)
    | post hrun hc hi hi' hfull hq ha ht =>
      refine hold ht fun pc hp₀ hm₀ => ?_
      obtain ⟨r, hfifo, hslot⟩ := hI q hi
      have hread : s.mayRead q = true := by rw [State.mayRead_of_dispatch hp₀]; exact hm₀
      subst hrun
      have hne : (s.queue q).curEvtNum.toNat + 1 ≠ (s.queue q).evtDescNumInQueue.toNat := by
        simpa [State.keepsSlot, hc, hfull, hread] using hok
      rw [hq, (hslot _ _ _ hp₀).1]
      exact hfifo.post_freed hfull _ _ hne
    | pass hrun hc hi hi' hfull =>
      subst hrun
      simp [State.keepsSlot, hc, hfull] at hok
    | take hp' hi hi' hn hq ha ht =>
      obtain ⟨r, hfifo, -⟩ := hI q hi
      rw [hp', ProcerPc.dispatch.injEq] at hp
      obtain ⟨rfl, rfl, -⟩ := hp
      rw [ha, hq]
      exact (hfifo.take hn).2
  · rcases h.reads q with hr | ⟨slot, k', pc, hp, hm, hr⟩
    · exact getElem?_of_prefix hpre (hS.reads k d (hr ▸ hd))
    · rw [hr, List.mem_append, List.mem_singleton, Prod.mk.injEq] at hd
      rcases hd with hd | ⟨rfl, rfl⟩
      · exact getElem?_of_prefix hpre (hS.reads k d hd)
      · exact getElem?_of_prefix hpre (hS.slot _ _ _ hp hm)

theorem slotInv_reach (h : Reach (fun s x => s.keepsSlot x = true) clients s) : SlotInv s q :=
  h.induction (P := fun s => SlotInv s q)
    ⟨fun _ _ _ hp => by simp [State.init] at hp, fun _ _ hd => by simp [State.init, readsIn] at hd⟩
    fun _ _ _ _ hr hS hok _ h => slotInv_trans (liveInv_reach hr) (readerInv_reach hr) (queue_reach hr).2
      hS hok h

/-- **Payload integrity.**  In every run whose posts keep the slots, every look at the descriptor of dispatch `k` finds
the descriptor that was accepted as number `k`, and what was accepted is what was taken, in order, and then what is
queued. -/
theorem payload_integrity (hr : Reach (fun s x => s.keepsSlot x = true) clients s) (q : ℕ) :
    (∀ k d, (k, d) ∈ s.reads q → (s.accepted q)[k]? = some d) ∧
      (∀ slot k pc, s.procer q = .dispatch slot k pc → k + 1 = (s.taken q).length ∧
        (s.manger.mayRead pc = true → (s.accepted q)[k]? = some ((s.queue q).evtDescQueue slot))) ∧
      s.accepted q = s.taken q ++ (s.queue q).contents := by
  obtain ⟨hU, hI⟩ := queue_reach hr
  have hS := slotInv_reach (q := q) hr
  cases hi : (s.queues q).mutexInit with
  | true =>
    obtain ⟨r, hfifo, hslot⟩ := hI q hi
    refine ⟨hS.reads, fun slot k pc hp => ⟨(hslot _ _ _ hp).2, hS.slot _ _ _ hp⟩, ?_⟩
    rw [hfifo.repr.contents]
    exact hfifo.content
  | false =>
    obtain ⟨h1, h2, h3, -⟩ := hU q hi
    refine ⟨hS.reads, fun slot k pc hp => absurd hp ((liveInv_reach hr).no_dispatch hi), ?_⟩
    rw [h1, h2, h3]
    rfl

/-! ### A post into the slot of a dispatch -/

/-- The descriptor accepted last does not have the sequence number of one accepted less than 65536 posts before. -/
theorem EvtQueue.Fifo.seqID_ne {x : EvtQueue abi} {r : IndexRing (EvtDesc abi)} {accepted taken : List (EvtDesc abi)}
    (h : x.Fifo r accepted taken) (hk : k + 1 = taken.length) {d : EvtDesc abi}
    (hd : d.seqID = BitVec.ofNat 32 accepted.length) : accepted[k]? ≠ some d := by
  intro hkd
  have heq : BitVec.ofNat 32 k = BitVec.ofNat 32 accepted.length := (h.seqIDs k d hkd).symm.trans hd
  have hmod := congrArg BitVec.toNat heq
  simp only [BitVec.toNat_ofNat] at hmod
  have hlen := h.length
  have hnum := r.num_le
  have hdepth := h.repr.depth
  omega

/-- **The condition is exact.**  A post that is accepted into the slot of a dispatch that still looks at it leaves
there a descriptor other than the one the dispatch is for. -/
theorem post_overwrites (hr : Reach ok clients s) (h : Trans s t a s') (hslot : s.keepsSlot (t, a) = false)
    (hacc : s'.accepted q ≠ s.accepted q) :
    ∃ slot k pc, s.procer q = .dispatch slot k pc ∧ s.manger.mayRead pc = true ∧
      (s'.accepted q)[k]? ≠ some ((s'.queue q).evtDescQueue slot) := by
  have hL := liveInv_reach hr
  obtain ⟨hU, hI⟩ := queue_reach hr
  -- either way the slot now has the sequence number of the new descriptor
  have hne : ∀ {r : IndexRing (EvtDesc abi)} {k : ℕ} {d d' : EvtDesc abi},
      (s.queue q).Fifo r (s.accepted q) (s.taken q) → k + 1 = (s.taken q).length →
      d'.seqID = BitVec.ofNat 32 (s.accepted q).length → (s.accepted q ++ [d])[k]? ≠ some d' := by
    intro r k d d' hfifo hk hd'
    rw [List.getElem?_append_left (by have := hfifo.length; omega)]
    exact hfifo.seqID_ne hk hd'
  cases h.queueStep hL q with
  | same hi hq ha | init hi hi' hq ha | take hp hi hi' hn hq ha => exact absurd ha hacc
  | @post env id d hrun hc hi hi' hfull hq ha =>
    subst hrun
    obtain ⟨r, hfifo, hdisp⟩ := hI q hi
    simp only [State.keepsSlot, hc, hfull, Bool.false_or, Bool.or_eq_false_iff, Bool.not_eq_false',
      decide_eq_false_iff_not, not_not] at hslot
    obtain ⟨hread, hlast⟩ := hslot
    unfold State.mayRead at hread
    split at hread
    · rename_i slot k pc hp
      obtain ⟨rfl, hk⟩ := hdisp _ _ _ hp
      refine ⟨_, k, pc, hp, hread, ?_⟩
      rw [ha, hq, (hfifo.post hfull id d).repr.cells]
      rw [hfifo.repr.num, hfifo.repr.cap] at hlast
      rw [r.push_cells_freed_of_full _ _ hlast]
      exact hne hfifo hk ((congrArg EvtDesc.seqID (EvtQueue.post_eq hfull id d).1).trans hfifo.seqID)
    · simp at hread
  | @pass env id d slot k row num hrun hc hi hi' hfull hp hq ha =>
    obtain ⟨r, hfifo, hdisp⟩ := hI q hi
    refine ⟨slot, k, _, hp, rfl, ?_⟩
    have hcell : (((s.queue q).post id d).2.1.writeSlot slot ((s.queue q).post id d).2.2).evtDescQueue slot =
        ((s.queue q).post id d).2.2 := Function.update_self ..
    rw [ha, hq, hcell]
    exact hne hfifo (hdisp _ _ _ hp).2
      ((congrArg EvtDesc.seqID (EvtQueue.post_eq hfull id d).1).trans hfifo.seqID)

/-- A client initializes the manager with queues of depth one, registers, subscribes and starts the processor. -/
def startedDepthOne : List (Thread × Act lp64) :=
  [(.client 0, .call (.initEvtManger (some ⟨0, 0, 0, 1⟩))), (.client 0, .go),
   (.client 0, .call (.regOper ⟨0⟩)), (.client 0, .go), (.client 0, .go),
   (.client 0, .call (.subEvts 0 [evtIDTestKeepAlive] ⟨1, 1⟩)), (.client 0, .go), (.client 0, .go)] ++ enabling (.client 0)

/-- Client `0` posts, up to the end of the section under the mutex. -/
def postOf (d : EvtDesc lp64) : List (Thread × Act lp64) :=
  [(.client 0, .call (.postEvtSRT 0 (.own d))), (.client 0, .go), (.client 0, .go), (.client 0, .go)]

/-- The processor takes the first of two events; the second is posted before the callback for the first is called,
and the callback is handed the second. -/
theorem payload_overwritten :
    ∃ s : State lp64, Reach (fun _ _ => True) 1 s ∧ s.manger.state = .running ∧
      ¬ ∀ k d, (k, d) ∈ s.reads 0 → (s.accepted 0)[k]? = some d := by
  obtain ⟨s, hr, hs⟩ := reach_of_run (fun _ _ => True) 1
    (startedDepthOne ++ postOf (defineEvtDesc lp64 evtIDTestKeepAlive) ++
      [(.client 0, .go), (.procer 0, .go)] ++ postOf (defineEvtDesc lp64 evtIDTestKeepAlive) ++
      List.replicate 5 (.procer 0, .go))
    (fun s => decide (s.manger.state = .running) &&
      (s.reads 0).any fun x => decide ((s.accepted 0)[x.1]? ≠ some x.2)) (by decide +kernel)
  simp only [Bool.and_eq_true, decide_eq_true_eq, List.any_eq_true, Prod.exists] at hs
  obtain ⟨hrun, k, d, hmem, hne⟩ := hs
  exact ⟨s, hr, hrun, fun h => hne (h k d hmem)⟩

/-- One event, taken and dispatched. -/
theorem payload_integrity_first :
    ∃ s : State lp64, (∃ k d, (k, d) ∈ s.reads 0) ∧ ∀ k d, (k, d) ∈ s.reads 0 → (s.accepted 0)[k]? = some d := by
  obtain ⟨s, hr, hs⟩ := reach_of_run (fun s x => s.keepsSlot x = true) 1
    (startedDepthOne ++ postOf (defineEvtDesc lp64 evtIDTestKeepAlive) ++
      (.client 0, .go) :: List.replicate 6 (.procer 0, .go))
    (fun s => !(s.reads 0).isEmpty) (by decide +kernel)
  simp only [Bool.not_eq_true', List.isEmpty_eq_false_iff] at hs
  obtain ⟨⟨k, d⟩, hmem⟩ := List.exists_mem_of_ne_nil _ hs
  exact ⟨s, ⟨k, d, hmem⟩, (payload_integrity hr 0).1⟩

end PlatIF.Evt
