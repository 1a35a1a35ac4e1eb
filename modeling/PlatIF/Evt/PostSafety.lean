import PlatIF.Evt.Live

/-!
# The queue a post uses

A post reads the pointer to the queue without the state lock, and uses it later.  It is safe as long as the pointer it
reads is to a queue that is initialized and not destroyed, and that queue is not destroyed under it.

* `PostInv` — the queue that a post has in hand is the current one;
* `post_uses_live_queue` — no step of a post follows a null pointer or uses a queue that was destroyed;
* `post_absent_queue` — both happen in runs of the code.
-/

namespace PlatIF.Evt

variable {abi : Abi} {s s' : State abi} {t u : Thread} {a : Act abi} {env : Env} {clients : ℕ}
  {ok : State abi → Thread × Act abi → Prop}

/-- A post that has read the pointer to its queue and not returned yet. -/
def Call.holdsQueue : Call abi → Bool
  | .postEvtSRT _ _ (.lock _) | .postEvtSRT _ _ (.signal _) => true
  | _ => false

/-- The pointer in `_mEvtQueueProcer[0]` is to a queue that is initialized and of which nothing is destroyed. -/
def State.queueReady (s : State abi) : Bool :=
  s.evtQueue.any fun q => (s.queues q).mutexReady && (s.queues q).condReady && !(s.queues q).freed

/-- A post reads the pointer to a queue that is ready, and a queue is destroyed while no post has one in hand. -/
def State.postsLive (s : State abi) (x : Thread × Act abi) : Bool :=
  match s.calls x.1, x.2 with
  | some (.postEvtSRT _ _ .load), .run _ => s.queueReady
  | some (.disableEvtManger (.join _)), .run _ => s.threads.all fun t => !(s.calls t).any Call.holdsQueue
  | _, _ => true

theorem State.queueReady_iff : s.queueReady = true ↔ ∃ q, s.evtQueue = some q ∧ (s.queues q).Usable := by
  simp only [State.queueReady, Option.any_eq_true, Bool.and_eq_true, Bool.not_eq_true']
  constructor
  · rintro ⟨q, hq, ⟨h1, h2⟩, h3⟩
    obtain ⟨hi, hg⟩ := QueueObj.mutexReady_iff.mp h1
    obtain ⟨hi', hg'⟩ := QueueObj.condReady_iff.mp h2
    exact ⟨q, hq, hi, hi', hg, hg', h3⟩
  · rintro ⟨q, hq, hu⟩
    exact ⟨q, hq, ⟨hu.mutexReady, hu.condReady⟩, hu.freed⟩

/-- Unless a thread is in the middle of enabling or disabling, there is such a queue exactly while the manager runs. -/
theorem queueReady_iff_running (hL : LiveInv s) (hs : s.Settled) :
    s.queueReady = true ↔ s.manger.state = .running := by
  rw [State.queueReady_iff]
  constructor
  · rintro ⟨q, hq, -⟩
    exact (hL.running hs).mp (by simp [hq])
  · intro hrun
    obtain ⟨q, hq⟩ := Option.ne_none_iff_exists'.mp ((hL.running hs).mpr hrun)
    exact ⟨q, hq, (hL.usable hs q hq).2⟩

/-- What a post may have in hand. -/
structure PostInv (s : State abi) : Prop where
  lock : ∀ t id arg p, s.calls t = some (.postEvtSRT id arg (.lock p)) →
    ∃ q, p = some q ∧ s.evtQueue = some q ∧ (s.queues q).Usable
  signal : ∀ t id arg q, s.calls t = some (.postEvtSRT id arg (.signal q)) → s.evtQueue = some q ∧ (s.queues q).Usable
  received : ∀ n id pc, s.calls (.client n) ≠ some (.postEvtSRT id .received pc)

/-- A queue that can be used stays the current one until it is destroyed. -/
theorem LifeStep.keeps_usable {c : Call abi} {q : ℕ} (hL : LiveInv s) (hc : s.calls t = some c) (h : LifeStep s t c s')
    (hq : s.evtQueue = some q) (hu : (s.queues q).Usable) (hd : ∀ p, c ≠ .disableEvtManger (.join p)) :
    s'.evtQueue = some q ∧ (s'.queues q).Usable := by
  have hP := hL.phase t c hc
  cases h with
  | enable hw hs htab hf =>
    obtain ⟨rfl, h0⟩ := hL.life.firstFree hf
    simp [State.evtQueue, htab, h0] at hq
  | initMutex =>
    obtain ⟨-, hq', -, hz⟩ := hP
    obtain rfl := Option.some.inj (hq.symm.trans hq')
    simpa [hz, QueueObj.zero] using hu.mutexInit
  | initCond =>
    obtain ⟨-, hq', -, -, h2, -⟩ := hP
    obtain rfl := Option.some.inj (hq.symm.trans hq')
    simp [hu.condInit] at h2
  | clear =>
    obtain ⟨-, hq', -, hf⟩ := hP
    obtain rfl := Option.some.inj (hq.symm.trans hq')
    simp [hu.freed] at hf
  | destroyMutex => exact absurd rfl (hd _)
  | destroyCond | free =>
    obtain ⟨-, hq', -, hg, -⟩ := hP
    obtain rfl := Option.some.inj (hq.symm.trans hq')
    simp [hu.mutexGone] at hg
  | create | enabled | disable | disabled => exact ⟨hq, hu⟩

theorem Trans.keeps_usable {q : ℕ} (hL : LiveInv s) (hX : StateLock s) (h : Trans s t a s') (hq : s.evtQueue = some q)
    (hu : (s.queues q).Usable) (hd : ∀ env p, a = .run env → s.calls t ≠ some (.disableEvtManger (.join p))) :
    s'.evtQueue = some q ∧ (s'.queues q).Usable := by
  rcases h.ordinary hL hX with ho | ⟨env, c, ha, hc, hl⟩
  · exact ⟨ho.queue.trans hq, ho.usable hu⟩
  · exact hl.keeps_usable hL hc hq hu fun p hp => hd env p ha (hc.trans (by rw [hp]))

/-- No queue is destroyed under a post. -/
theorem usable_of_holds (hr : Reach ok clients s) (hok : s.postsLive (t, a) = true) (h : Trans s t a s') {c : Call abi}
    (hc : s.calls u = some c) (hh : c.holdsQueue = true) {q : ℕ} (hq : s.evtQueue = some q)
    (hu : (s.queues q).Usable) : s'.evtQueue = some q ∧ (s'.queues q).Usable := by
  refine h.keeps_usable (liveInv_reach hr) (stateLock_reach hr) hq hu fun env p ha hd => ?_
  subst ha
  simp only [State.postsLive, hd] at hok
  have hnot := List.all_eq_true.mp hok u (mem_threads hr (by simp [hc]))
  simp [hc, hh] at hnot

/-- What a step on the tables leaves of a post. -/
theorem TableStep.post_rest {c : Call abi} {m : Manger abi} {n : ℕ} {os : List (Obs abi)} {id : EvtOperID abi}
    {arg : PostArg abi} {pc' : PostPc} (h : TableStep s t env c m n (some (.postEvtSRT id arg pc')) os) :
    ∃ pc, c = .postEvtSRT id arg pc ∧ (pc' = .load ∨ pc = .load ∧ pc' = .lock s.evtQueue) := by
  cases h with
  | postCheck hr => exact ⟨_, rfl, .inl rfl⟩
  | postLoad hq => exact ⟨_, rfl, .inr ⟨rfl, rfl⟩⟩

theorem Api.toCall_post {api : Api abi} {id : EvtOperID abi} {arg : PostArg abi} {pc : PostPc}
    (h : api.toCall = .postEvtSRT id arg pc) : api = .postEvtSRT id arg ∧ pc = .check := by
  cases api <;> simp_all [Api.toCall]

/-- The step of a post in progress. -/
theorem Trans.post_own (h : Trans s t a s') {id : EvtOperID abi} {arg : PostArg abi} {pc' : PostPc}
    (hc : s'.calls t = some (.postEvtSRT id arg pc')) :
    s.calls t = some (.postEvtSRT id arg pc') ∨
      pc' = .check ∧ (∀ n, arg = .received → t ≠ .client n) ∨
      ∃ env pc, a = .run env ∧ s.calls t = some (.postEvtSRT id arg pc) ∧
        (pc' = .load ∨ pc = .load ∧ pc' = .lock s.evtQueue ∨ ∃ q, pc = .lock (some q) ∧ pc' = .signal q) := by
  cases h with
  | call ha hc' hu hr =>
    simp only [State.setCall, Function.update_self, Option.some.injEq] at hc
    obtain ⟨rfl, rfl⟩ := Api.toCall_post hc
    exact .inr (.inl ⟨rfl, fun n harg => hr _ n (by rw [harg])⟩)
  | table ha hc' htab =>
    simp only [State.tableStep, Function.update_self] at hc
    subst hc
    obtain ⟨pc, rfl, hpc⟩ := htab.post_rest
    exact .inr (.inr ⟨_, pc, ha, hc', hpc.imp_right .inl⟩)
  | post ha hc' =>
    simp only [State.obs, State.setCall, Function.update_self, Option.some.injEq, Call.postEvtSRT.injEq] at hc
    obtain ⟨rfl, rfl, rfl⟩ := hc
    exact .inr (.inr ⟨_, _, ha, hc', .inr (.inr ⟨_, rfl, rfl⟩)⟩)
  | life ha hc' hl => cases hl <;> simp at hc
  | cancelJoin | signal => simp at hc
  | _ => exact .inl hc

theorem postInv_trans (hr : Reach ok clients s) (hI : PostInv s) (hok : s.postsLive (t, a) = true)
    (h : Trans s t a s') : PostInv s' := by
  have hL := liveInv_reach hr
  refine ⟨fun u id arg p hc => ?_, fun u id arg q hc => ?_, fun n id pc hc => ?_⟩
  · have hold : s.calls u = some (.postEvtSRT id arg (.lock p)) →
        ∃ q, p = some q ∧ s'.evtQueue = some q ∧ (s'.queues q).Usable := by
      intro hc
      obtain ⟨q, hp, hq, hu⟩ := hI.lock _ _ _ _ hc
      exact ⟨q, hp, usable_of_holds hr hok h hc rfl hq hu⟩
    by_cases hut : u = t
    · subst hut
      rcases h.post_own hc with hc | ⟨hpc, -⟩ | ⟨env, pc, rfl, hc₀, hpc | ⟨rfl, hpc⟩ | ⟨q, -, hpc⟩⟩
      · exact hold hc
      · simp at hpc
      · simp at hpc
      · -- the pointer that is read is to a queue that is ready
        obtain ⟨q, hq, hu⟩ := State.queueReady_iff.mp (by simpa [State.postsLive, hc₀] using hok)
        rw [PostPc.lock.injEq] at hpc
        refine ⟨q, hpc.trans hq, ?_⟩
        exact h.keeps_usable hL (stateLock_reach hr) hq hu fun _ _ _ => by simp [hc₀]
      · simp at hpc
    · rw [h.calls_ne hut] at hc
      exact hold hc
  · have hold : s.calls u = some (.postEvtSRT id arg (.signal q)) → s'.evtQueue = some q ∧ (s'.queues q).Usable := by
      intro hc
      obtain ⟨hq, hu⟩ := hI.signal _ _ _ _ hc
      exact usable_of_holds hr hok h hc rfl hq hu
    by_cases hut : u = t
    · subst hut
      rcases h.post_own hc with hc | ⟨hpc, -⟩ | ⟨env, pc, rfl, hc, hpc | ⟨-, hpc⟩ | ⟨q', rfl, hpc⟩⟩
      · exact hold hc
      · simp at hpc
      · simp at hpc
      · simp at hpc
      · rw [PostPc.signal.injEq] at hpc
        subst hpc
        obtain ⟨q', hq', hq, hu⟩ := hI.lock _ _ _ _ hc
        obtain rfl := Option.some.inj hq'
        exact usable_of_holds hr hok h hc rfl hq hu
    · rw [h.calls_ne hut] at hc
      exact hold hc
  · by_cases hut : .client n = t
    · subst hut
      rcases h.post_own hc with hc | ⟨-, hne⟩ | ⟨env, pc, rfl, hc, -⟩
      · exact hI.received _ _ _ hc
      · exact hne n rfl rfl
      · exact hI.received _ _ _ hc
    · rw [h.calls_ne hut] at hc
      exact hI.received _ _ _ hc

theorem postInv_reach (h : Reach (fun s x => s.postsLive x = true) clients s) : PostInv s :=
  h.induction (P := PostInv) ⟨by simp [State.init], by simp [State.init], by simp [State.init]⟩
    fun _ _ _ _ hr hI hok _ h => postInv_trans hr hI hok h

/-! ### The steps of a post -/

theorem Trans.halted_eq (h : Trans s t a s') : s'.halted = s.halted ∨ ∃ x, HaltStep s t x := by
  cases h with
  | halt hh => exact .inr ⟨_, hh⟩
  | life ha hc hl => exact .inl (by cases hl <;> rfl)
  | _ => exact .inl (by simp [State.endDispatch])

/-- A callback can read the descriptor it was handed. -/
theorem argDesc_ne_none (hL : LiveInv s) {id : EvtOperID abi} {arg : PostArg abi} {pc : PostPc}
    (hreceived : ∀ n, arg = .received → t ≠ .client n) (hc : s.calls t = some (.postEvtSRT id arg pc)) :
    s.argDesc t arg ≠ none := by
  cases arg with
  | own d => simp [State.argDesc]
  | received =>
    cases t with
    | client n => exact absurd rfl (hreceived n rfl)
    | procer p =>
      have hcb := hL.inCb p (by simp [hc])
      have hlive := (hL.ofCb (p := p) (by simp [hc])).2.freed
      unfold ProcerPc.isInCb at hcb
      split at hcb
      · rename_i slot k row num hp
        simp [State.argDesc, hp, hlive]
      · simp at hcb

/-- A post that meets the condition does not end the process. -/
theorem halt_of_postsLive (hL : LiveInv s) (hI : PostInv s) {id : EvtOperID abi} {arg : PostArg abi} {pc : PostPc}
    (hok : s.postsLive (t, .run env) = true) (hc : s.calls t = some (.postEvtSRT id arg pc)) {x : Halt} :
    ¬ HaltStep s t x := by
  intro hx
  cases hx with
  | pubNull hc' | pubBounds hc' | pubFreed hc' => simp [hc] at hc'
  | procerFreed ht hc' | procerNull ht hc' => simp [hc] at hc'
  | postTable hc' hq =>
    obtain ⟨-, -, rfl⟩ := Call.postEvtSRT.inj (Option.some.inj (hc.symm.trans hc'))
    obtain ⟨q, hq', -⟩ := State.queueReady_iff.mp (by simpa [State.postsLive, hc] using hok)
    simp [State.evtQueue, hq] at hq'
  | postNull hc' =>
    obtain ⟨q, hq, -⟩ := hI.lock _ _ _ _ hc'
    simp at hq
  | postFreed hc' hl =>
    obtain ⟨q, hq, -, hu⟩ := hI.lock _ _ _ _ hc'
    obtain rfl := Option.some.inj hq
    simp [hu.freed] at hl
  | postEarly hc' hl hi =>
    obtain ⟨q, hq, -, hu⟩ := hI.lock _ _ _ _ hc'
    obtain rfl := Option.some.inj hq
    simp [hu.mutexReady] at hi
  | postArg hc' ha =>
    obtain ⟨-, rfl, -⟩ := Call.postEvtSRT.inj (Option.some.inj (hc.symm.trans hc'))
    refine argDesc_ne_none hL (fun n harg ht => ?_) hc ha
    subst harg ht
    exact hI.received n _ _ hc
  | postSignalFreed hc' hl => simp [(hI.signal _ _ _ _ hc').2.freed] at hl
  | postSignalEarly hc' hl hi => simp [(hI.signal _ _ _ _ hc').2.condReady] at hi

/-- What a step of a post does to the queues: nothing, or it is accepted by the queue it has in hand. -/
theorem Trans.post_queues {id : EvtOperID abi} {arg : PostArg abi} {pc : PostPc} (h : Trans s t a s')
    (hc : s.calls t = some (.postEvtSRT id arg pc)) :
    s'.manger = s.manger ∧
      (s'.queues = s.queues ∨ ∃ q d, pc = .lock (some q) ∧ s'.accepted q = s.accepted q ++ [d]) := by
  cases h with
  | call ha hc' => simp [hc] at hc'
  | table ha hc' htab =>
    obtain rfl := Option.some.inj (hc.symm.trans hc')
    cases htab <;> exact ⟨rfl, .inl rfl⟩
  | life ha hc' hl =>
    obtain rfl := Option.some.inj (hc.symm.trans hc')
    cases hl
  | cancelJoin ha ht hc' => simp [hc] at hc'
  | @post _ _ _ q d place ha hc' =>
    obtain ⟨-, -, rfl⟩ := Call.postEvtSRT.inj (Option.some.inj (hc.symm.trans hc'))
    exact ⟨by simp, .inr ⟨q, _, rfl, by simp [acceptedIn]; rfl⟩⟩
  | signal => exact ⟨by simp, .inl (by simp)⟩
  | halt => exact ⟨rfl, .inl rfl⟩
  | wait ht hc' | take ht hc' | wake ht hc' | cancelWait ha ht hc' | noTable ht hc' | rdlock ht hc'
  | endDispatch ht hc' | move ht hc' | compare ht hc' | callSuber ht hc' | cbRead ht hc' | cancelCb ha ht hc' =>
    simp [hc] at hc'

/-- While the manager does not run, the state lock is held by a thread that enables it. -/
theorem enabling_of_queue (hL : LiveInv s) {q : ℕ} (hq : s.evtQueue = some q) (hs : s.manger.state ≠ .running) :
    ∃ u pc, s.calls u = some (.enableEvtManger pc) ∧ pc ≠ .lock := by
  have hset : ¬ s.Settled := fun hset => hs ((hL.running hset).mp (by simp [hq]))
  simp only [State.Settled, not_forall, Bool.not_eq_false] at hset
  obtain ⟨u, c, hc, hx⟩ := hset
  have hP := hL.phase u c hc
  unfold Call.holdsState at hx
  split at hx
  · simp at hx
  · simp at hx
  · exact ⟨u, _, hc, by rintro rfl; simp_all⟩
  · rename_i pc hne
    cases pc with
    | lock => simp_all
    | join p | destroyCond p | free p | clear p | unlock p => exact absurd hP.1 hs
  · simp at hx

/-- **A post uses a live queue.**  In every run that meets the condition, no step of a post that meets it ends the
process, and a queue in hand is the current one, initialized and with nothing of it destroyed.  Outside the running
state a post never changes the manager; it changes a queue only when the one that a call of `PLT_EVT_enableEvtManger` in
progress has set up accepts the event, and without such a call it returns nothing but `TOS_RESULT_NOT_REGED`.  The
condition on the pointer that is read says that the manager runs, unless a thread is in the middle of enabling or
disabling it. -/
theorem post_uses_live_queue {id : EvtOperID abi} {arg : PostArg abi} {pc : PostPc}
    (hr : Reach (fun s x => s.postsLive x = true) clients s) (hok : s.postsLive (t, .run env) = true)
    (hc : s.calls t = some (.postEvtSRT id arg pc)) (hn : next s (t, .run env) = some s') :
    s'.halted = none ∧
      (∀ p, pc = .lock p → ∃ q, p = some q ∧ s.evtQueue = some q ∧ (s.queues q).Usable) ∧
      (∀ q, pc = .signal q → s.evtQueue = some q ∧ (s.queues q).Usable) ∧
      (s.manger.state ≠ .running → s'.manger = s.manger ∧
        (s'.queues = s.queues ∨ ∃ q d u pc', s.evtQueue = some q ∧ s'.accepted q = s.accepted q ++ [d] ∧
          s.calls u = some (.enableEvtManger pc') ∧ pc' ≠ .lock) ∧
        (s.Settled → s'.queues = s.queues ∧ (s'.calls t = none → s'.log = s.log ++ [.ret t (some .notReged)]))) ∧
      (s.Settled → (s.queueReady = true ↔ s.manger.state = .running)) := by
  have hL := liveInv_reach hr
  have hI := postInv_reach hr
  obtain ⟨hh, htrans⟩ := next_trans hn
  have hlock : ∀ p, pc = .lock p → ∃ q, p = some q ∧ s.evtQueue = some q ∧ (s.queues q).Usable := by
    rintro p rfl
    exact hI.lock _ _ _ _ hc
  have hsignal : ∀ q, pc = .signal q → s.evtQueue = some q ∧ (s.queues q).Usable := by
    rintro q rfl
    exact hI.signal _ _ _ _ hc
  refine ⟨?_, hlock, hsignal, fun hs => ?_, queueReady_iff_running hL⟩
  · rcases htrans.halted_eq with he | ⟨x, hx⟩
    · rw [he, hh]
    · exact absurd hx (halt_of_postsLive hL hI hok hc)
  · obtain ⟨hm, hqueues⟩ := htrans.post_queues hc
    refine ⟨hm, hqueues.imp_right ?_, fun hset => ?_⟩
    · rintro ⟨q, d, rfl, hacc⟩
      obtain ⟨q', hq', hq, -⟩ := hlock _ rfl
      obtain rfl := Option.some.inj hq'
      obtain ⟨u, pc', hu, hne⟩ := enabling_of_queue hL hq hs
      exact ⟨q, d, u, pc', hq, hacc, hu, hne⟩
    · have hnone : s.evtQueue = none := by
        by_contra hne
        exact hs ((hL.running hset).mp hne)
      cases pc with
      | check =>
        refine ⟨hqueues.resolve_right (by simp), ?_⟩
        simp only [next, hh, hc, State.callStep, State.postEvtSRT, Option.isSome_none, Bool.false_eq_true,
          if_false] at hn
        split at hn
        · obtain rfl := Option.some.inj hn
          simp
        · obtain rfl := Option.some.inj hn
          simp
      | load =>
        have hready := (queueReady_iff_running hL hset).mp (by simpa [State.postsLive, hc] using hok)
        exact absurd hready hs
      | lock p =>
        obtain ⟨q, -, hq, -⟩ := hlock p rfl
        simp [hnone] at hq
      | signal q => simp [hnone] at hsignal

/-- Client `0` initializes the manager and registers. -/
def initedAndReged : List (Thread × Act lp64) :=
  [(.client 0, .call (.initEvtManger (some ⟨0, 0, 0, 0⟩))), (.client 0, .go),
   (.client 0, .call (.regOper ⟨0⟩)), (.client 0, .go), (.client 0, .go)]

/-- Client `n` posts, up to the pointer it reads. -/
def postLoad (n : ℕ) : List (Thread × Act lp64) :=
  [(.client n, .call (.postEvtSRT 0 (.own (defineEvtDesc lp64 evtIDTestKeepAlive)))), (.client n, .go),
    (.client n, .go)]

/-- The next step of client `n` is the end of the process in a post. -/
def postHalts (n : ℕ) (h : Halt) (s : State lp64) : Bool :=
  match s.calls (.client n), next s (.client n, .go) with
  | some (.postEvtSRT _ _ _), some s' => decide (s.manger.state = .ready ∧ s'.halted = some h)
  | _, _ => false

theorem postHalts_spec {n : ℕ} {h : Halt} {s : State lp64} (hs : postHalts n h s = true) :
    ∃ id arg pc s', s.calls (.client n) = some (.postEvtSRT id arg pc) ∧ next s (.client n, .go) = some s' ∧
      s.manger.state = .ready ∧ s'.halted = some h := by
  unfold postHalts at hs
  split at hs
  · rename_i id arg pc s' hc hn
    obtain ⟨hst, hh⟩ := of_decide_eq_true hs
    exact ⟨id, arg, pc, s', hc, hn, hst, hh⟩
  · simp at hs

/-- A post of a registered operator in the ready state follows the null pointer, and a post that read the pointer before
another client disables the manager uses the queue after it was freed. -/
theorem post_absent_queue :
    (∃ (s s' : State lp64) (id : _) (arg : _) (pc : _), Reach (fun _ _ => True) 1 s ∧
      s.calls (.client 0) = some (.postEvtSRT id arg pc) ∧ next s (.client 0, .go) = some s' ∧
      s.manger.state = .ready ∧ s'.halted = some .nullDeref) ∧
    ∃ (s s' : State lp64) (id : _) (arg : _) (pc : _), Reach (fun _ _ => True) 2 s ∧
      s.calls (.client 1) = some (.postEvtSRT id arg pc) ∧ next s (.client 1, .go) = some s' ∧
      s.manger.state = .ready ∧ s'.halted = some .useAfterFree := by
  constructor
  · obtain ⟨s, hr, hs⟩ := reach_of_run (fun _ _ => True) 1 (initedAndReged ++ postLoad 0)
      (postHalts 0 .nullDeref) (by decide +kernel)
    obtain ⟨id, arg, pc, s', hc, hn, hst, hh⟩ := postHalts_spec hs
    exact ⟨s, s', id, arg, pc, hr, hc, hn, hst, hh⟩
  · obtain ⟨s, hr, hs⟩ := reach_of_run (fun _ _ => True) 2
      (initedAndReged ++ enabling (.client 0) ++ postLoad 1 ++
        [(.client 0, .call .disableEvtManger), (.client 0, .go), (.procer 0, .go), (.procer 0, .cancel),
          (.client 0, .go), (.client 0, .go), (.client 0, .go), (.client 0, .go), (.client 0, .go)])
      (postHalts 1 .useAfterFree) (by decide +kernel)
    obtain ⟨id, arg, pc, s', hc, hn, hst, hh⟩ := postHalts_spec hs
    exact ⟨s, s', id, arg, pc, hr, hc, hn, hst, hh⟩

/-- The queue whose mutex the call is about to lock, of a post that has read the pointer. -/
def Call.lockTarget : Call abi → Option ℕ
  | .postEvtSRT _ _ (.lock (some q)) => some q
  | _ => none

theorem Call.lockTarget_eq_some {c : Call abi} {q : ℕ} :
    c.lockTarget = some q ↔ ∃ id arg, c = .postEvtSRT id arg (.lock (some q)) := by
  unfold Call.lockTarget
  split <;> simp_all

/-- A post while the manager runs. -/
theorem post_uses_live_queue_running :
    ∃ s s' : State lp64, next s (.client 0, .go) = some s' ∧ s.evtQueue = some 0 ∧ s'.halted = none := by
  obtain ⟨s, hr, hs⟩ := reach_of_run (fun s x => s.postsLive x = true) 1
    (initedAndReged ++ enabling (.client 0) ++ postLoad 0)
    (fun s : State lp64 => (s.calls (.client 0)).any fun c => (next s (.client 0, .go)).any fun _ =>
      c.lockTarget == some 0) (by decide +kernel)
  simp only [Option.any_eq_true, beq_iff_eq, Call.lockTarget_eq_some] at hs
  obtain ⟨_, hc, s', hn, id, arg, rfl⟩ := hs
  have hsafe := post_uses_live_queue hr (by simp [State.postsLive, hc]) hc hn
  obtain ⟨q, hq, hcur, -⟩ := hsafe.2.1 _ rfl
  obtain rfl := Option.some.inj hq
  exact ⟨s, s', hn, hcur, hsafe.1⟩

end PlatIF.Evt
