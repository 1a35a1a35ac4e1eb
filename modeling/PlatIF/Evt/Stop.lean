import PlatIF.Evt.Procer

/-!
# Stopping the processor

`PLT_EVT_disableEvtManger` cancels the processor thread wherever it is, joins it and frees the queue.  Nothing that was
accepted is lost when the cancellation takes effect while the processor waits with its queue empty: the thread ends
with the mutex locked, so that nothing is accepted after it.  What was accepted reaches its subscribers when no post
overwrites the slot of a dispatch.

* `StopInv` — the dispatches are complete up to the current one, and a queue whose processor ended is empty for good;
* `Served` — a dispatch that ended in the run made the calls that were due for its event;
* `accepted_not_dropped` — what was accepted is served, in dispatch or queued, and all served when the queue is freed;
* `accepted_dropped` — a processor that is cancelled in a callback, with another event queued.
-/

namespace PlatIF.Evt

variable {abi : Abi} {s s' : State abi} {t : Thread} {a : Act abi} {clients q : ℕ}

/-- A cancellation takes effect only while the processor waits in `pthread_cond_wait` and its queue is empty. -/
def State.stopsIdle (s : State abi) (x : Thread × Act abi) : Bool :=
  match x with
  | (.procer q, .cancel) => (s.procer q == .waiting || s.procer q == .woken) && (s.queue q).curEvtNum == 0
  | _ => true

/-- The number of the current dispatch of queue `q`, or of the next one. -/
def State.dispatchNo (s : State abi) (q : ℕ) : ℕ :=
  match s.procer q with
  | .dispatch _ k _ => k
  | _ => (s.taken q).length

/-- The processor of `q` has completed its dispatches up to the current one.  It ends with the mutex locked and
everything accepted taken, and the queue is freed only after it. -/
structure StopInv (s : State abi) (q : ℕ) : Prop where
  dispatched : s.dispatched q = List.range (s.dispatchNo q)
  ended : s.procer q = .ended → (s.queues q).mutex.isSome = true ∧ s.accepted q = s.taken q
  freed : (s.queues q).freed = true → s.procer q = .ended

theorem StopInv.congr (hI : StopInv s q) (hm : (s'.queues q).mutex = (s.queues q).mutex)
    (hf : (s'.queues q).freed = (s.queues q).freed) (hp : s'.procer q = s.procer q)
    (hd : s'.dispatched q = s.dispatched q) (ht : s'.taken q = s.taken q)
    (ha : (s.queues q).mutex.isSome = true → s'.accepted q = s.accepted q) : StopInv s' q where
  dispatched := by rw [hd, hI.dispatched, State.dispatchNo, State.dispatchNo, hp, ht]
  ended he := by
    obtain ⟨h1, h2⟩ := hI.ended (hp ▸ he)
    exact ⟨hm ▸ h1, by rw [ha h1, ht, h2]⟩
  freed h := hp.trans (hI.freed (hf ▸ h))

/-- The processor moves on without ending. -/
theorem StopInv.move (hI : StopInv s q) (hne : s'.procer q ≠ .ended) (halive : (s.procer q).alive)
    (hf : (s'.queues q).freed = (s.queues q).freed) (hd : s'.dispatched q = List.range (s'.dispatchNo q)) :
    StopInv s' q where
  dispatched := hd
  ended he := absurd he hne
  freed h := absurd (hI.freed (hf ▸ h)) halive.2

/-- The dispatch is completed. -/
theorem StopInv.complete (hI : StopInv s q) (hQ : QueueInv s) (hq : (s.queues q).mutexInit = true) {slot k : ℕ} {pc : DispatchPc}
    (hp : s.procer q = .dispatch slot k pc) (hp' : s'.procer q = .top)
    (hf : (s'.queues q).freed = (s.queues q).freed) (hd : s'.dispatched q = s.dispatched q ++ [k])
    (ht : s'.taken q = s.taken q) : StopInv s' q := by
  obtain ⟨r, -, hdisp⟩ := hQ q hq
  refine hI.move (by simp [hp']) (by simp [hp, ProcerPc.alive]) hf ?_
  have hno : s.dispatchNo q = k := by simp [State.dispatchNo, hp]
  have hno' : s'.dispatchNo q = k + 1 := by
    rw [(hdisp _ _ _ hp).2, ← ht, State.dispatchNo, hp']
  rw [hd, hI.dispatched, hno, hno', List.range_succ]

/-- A queue that is empty has given out all it accepted. -/
theorem QueueInv.accepted_eq_taken (hQ : QueueInv s) (hq : (s.queues q).mutexInit = true) (hn : (s.queue q).curEvtNum = 0) :
    s.accepted q = s.taken q := by
  obtain ⟨r, hfifo, -⟩ := hQ q hq
  have hnum : r.num = 0 := by rw [← hfifo.repr.num, hn]; rfl
  have hnil : r.contents = [] := List.eq_nil_of_length_eq_zero (by rw [IndexRing.contents_length, hnum])
  rw [hfifo.content, hnil, List.append_nil]

theorem StopInv.frame (hI : StopInv s q) (hF : QueueFrame s s' q) : StopInv s' q :=
  hI.congr (by rw [hF.queues]) (by rw [hF.queues]) hF.procer hF.dispatched hF.taken fun _ => hF.accepted

/-- A step that sets up or stops a queue. -/
theorem StopInv.life {c : Call abi} (hL : LiveInv s) (hI : StopInv s q) (hc : s.calls t = some c)
    (h : LifeStep s t c s') : StopInv s' q := by
  have hd : s'.dispatched q = s.dispatched q := h.log_keeps (fun _ _ => rfl) (dispatchedIn_append q)
  have ht : s'.taken q = s.taken q := h.log_keeps (fun _ _ => rfl) (takenIn_append q)
  have ha : s'.accepted q = s.accepted q := h.log_keeps (fun _ _ => rfl) (acceptedIn_append q)
  cases h with
  | enable =>
    -- the zeroed object is what was there
    have hz : Function.update s.queues s.nextQueue .zero = s.queues := by
      rw [← (hL.fresh s.nextQueue le_rfl).2, Function.update_eq_self]
    exact hI.congr (by simp [hz]) (by simp [hz]) rfl hd ht fun _ => ha
  | @initMutex p | @initCond p | @destroyMutex p | @destroyCond p =>
    by_cases hq : q = p
    · subst hq
      exact hI.congr (by simp) (by simp) rfl hd ht fun _ => ha
    · exact hI.congr (by simp [Function.update_of_ne hq]) (by simp [Function.update_of_ne hq]) rfl hd ht fun _ => ha
  | @create p =>
    by_cases hq : q = p
    · subst hq
      obtain ⟨-, -, hp, hu⟩ := hL.phase t _ hc
      refine ⟨?_, fun he => by simp at he, fun hf => by simp [hu.freed] at hf⟩
      rw [hd, hI.dispatched]
      simp [State.dispatchNo, hp]
    · exact hI.congr rfl rfl (by simp [Function.update_of_ne hq]) hd ht fun _ => ha
  | @free p =>
    by_cases hq : q = p
    · subst hq
      obtain ⟨-, -, he, -⟩ := hL.phase t _ hc
      refine ⟨by rw [hd, hI.dispatched]; simp [State.dispatchNo], fun he => ?_, fun _ => he⟩
      simpa using hI.ended he
    · exact hI.congr (by simp [Function.update_of_ne hq]) (by simp [Function.update_of_ne hq]) rfl hd ht fun _ => ha
  | enabled | disable | clear | disabled => exact hI.congr rfl rfl rfl hd ht fun _ => ha

theorem stopInv_trans (hL : LiveInv s) (hQ : QueueInv s) (hI : StopInv s q)
    (hok : s.stopsIdle (t, a) = true) (h : Trans s t a s') : StopInv s' q := by
  by_cases hother : s.calls t = none ∧ ∃ p, t = .procer p ∧ q ≠ p
  · obtain ⟨hc, p, rfl, hq⟩ := hother
    exact hI.frame (h.queueFrame hc hq)
  -- what is left are the calls and the processor of this queue
  have hself : ∀ {p}, t = .procer p → s.calls t = none → p = q := fun {p} ht hc =>
    by_contra fun hq => hother ⟨hc, p, ht, Ne.symm hq⟩
  cases h with
  | call | halt => exact hI.congr rfl rfl rfl rfl rfl fun _ => rfl
  | life ha hc hl => exact hI.life hL hc hl
  | table ha hc htab =>
    obtain ⟨h1, h2, -, h4⟩ := htab.log q
    exact hI.congr rfl rfl rfl (by simp [h4]) (by simp [h2]) fun _ => by simp [h1]
  | @cancelJoin p p' ha ht hc =>
    -- a callback that joins runs, so its processor does not wait
    subst ha ht
    have hcb := hL.inCb p (by simp [hc])
    simp only [State.stopsIdle, Bool.and_eq_true, Bool.or_eq_true, beq_iff_eq] at hok
    rcases hok.1 with hp | hp <;> simp [hp, ProcerPc.isInCb] at hcb
  | cancelCb ha ht hc hp =>
    subst ha ht
    simp [State.stopsIdle, hp] at hok
  | @post env id arg p d place ha hc hl hi hm hfull hd =>
    refine hI.congr ((writeBack_mutex ..).trans (setQueue_mutex ..))
      ((setQueue_sameLife ..).trans (writeBack_sameLife ..)).freed (by simp) (by simp [dispatchedIn])
      (by simp [takenIn]) fun hlocked => ?_
    have hq : p ≠ q := fun hq => by simp [← hq, hm] at hlocked
    simp [acceptedIn, hq]
  | @signal env id arg p ha hc hl =>
    by_cases hw : s.procer p = .waiting ∧ q = p
    · obtain ⟨hw, rfl⟩ := hw
      refine hI.move (by simp [State.condSignal, hw]) (by simp [hw, ProcerPc.alive]) (by simp) ?_
      simpa [State.condSignal, hw, State.dispatchNo] using hI.dispatched
    · refine hI.congr (by simp) (by simp) ?_ (by simp) (by simp) fun _ => by simp
      simp only [State.ret, State.setCall, State.obs, State.condSignal]
      split
      · rename_i hw'
        exact Function.update_of_ne (fun hq => hw ⟨hw', hq⟩) _ _
      · rfl
  | cbRead => exact hI.congr rfl rfl rfl (by simp [dispatchedIn]) (by simp [takenIn]) fun _ => by simp [acceptedIn]
  | wait ht hc hp =>
    obtain rfl := hself ht hc
    have hd := hI.dispatched
    rcases hp with hp | hp
    all_goals
      refine hI.move (by simp) (by simp [hp, ProcerPc.alive]) rfl ?_
      simpa [State.dispatchNo, hp] using hd
  | take ht hc hp =>
    obtain rfl := hself ht hc
    have hd := hI.dispatched
    rcases hp with hp | hp
    all_goals
      refine hI.move (by simp) (by simp [hp, ProcerPc.alive]) (by simp) ?_
      simpa [State.dispatchNo, hp, dispatchedIn] using hd
  | wake ht hc hp =>
    obtain rfl := hself ht hc
    refine hI.move (by simp) (by simp [hp, ProcerPc.alive]) rfl ?_
    simpa [State.dispatchNo, hp] using hI.dispatched
  | @cancelWait p ha ht hc hp hx hm =>
    obtain rfl := hself ht hc
    subst ha ht
    simp only [State.stopsIdle, Bool.and_eq_true, Bool.or_eq_true, beq_iff_eq] at hok
    have hu := (hL.live p (by rcases hp with hp | hp <;> simp [hp, ProcerPc.alive])).2
    have hd := hI.dispatched
    refine ⟨?_, fun _ => ⟨by simp, hQ.accepted_eq_taken hu.mutexInit hok.2⟩, fun hf => ?_⟩
    · rcases hp with hp | hp <;> simpa [State.dispatchNo, hp] using hd
    · simp
  | @noTable p slot k ht hc hp =>
    obtain rfl := hself ht hc
    have hu := (hL.live p (by simp [hp, ProcerPc.alive])).2
    exact hI.complete hQ hu.mutexInit hp (by simp) rfl (by simp [dispatchedIn]) (by simp [takenIn])
  | @endDispatch p slot k row ht hc hp =>
    obtain rfl := hself ht hc
    have hu := (hL.live p (by simp [hp, ProcerPc.alive])).2
    exact hI.complete hQ hu.mutexInit hp (by simp [State.endDispatch]) rfl (by simp [State.endDispatch, dispatchedIn])
      (by simp [State.endDispatch, takenIn])
  | rdlock ht hc hp | move ht hc hp | compare ht hc hp | callSuber ht hc hp =>
    obtain rfl := hself ht hc
    refine hI.move (by simp) (by simp [hp, ProcerPc.alive]) rfl ?_
    simpa [State.dispatchNo, hp, dispatchedIn] using hI.dispatched

theorem stopInv_reach (h : Reach (fun s x => s.stopsIdle x = true) clients s) : StopInv s q :=
  h.induction (P := fun s => StopInv s q)
    ⟨rfl, fun he => by simp [State.init] at he, fun hf => by simp [State.init, QueueObj.zero] at hf⟩ fun _ _ _ _ hr hI hok _ h =>
      stopInv_trans (liveInv_reach hr) (queue_reach hr).2 hI hok h

/-! ### What a dispatch has made when it ends -/

/-- The calls of dispatch `k` of queue `q`, with the descriptors handed. -/
def madeCalls (q k : ℕ) (log : List (Obs abi)) : List (SuberCall abi) :=
  log.filterMap fun
    | .call p j id priv d => if p = q ∧ j = k then some (id, priv, d) else none
    | _ => none

@[simp] theorem madeCalls_append (q k : ℕ) (log os : List (Obs abi)) :
    madeCalls q k (log ++ os) = madeCalls q k log ++ madeCalls q k os :=
  List.filterMap_append

/-- A call is one of the looks, so it is handed what the dispatch found. -/
theorem madeCalls_eq {k : ℕ} {log : List (Obs abi)} {d : EvtDesc abi} (h : ∀ x, (k, x) ∈ readsIn q log → x = d) :
    madeCalls q k log = (callsIn q k log).map (handed d) := by
  rw [madeCalls, callsIn, List.map_filterMap]
  refine List.filterMap_congr fun o ho => ?_
  cases o with
  | call p j id priv x =>
    by_cases hpj : p = q ∧ j = k
    · obtain ⟨rfl, rfl⟩ := hpj
      have hx := h x (List.mem_filterMap.mpr ⟨_, ho, if_pos rfl⟩)
      simp [hx, handed]
    · simp [hpj]
  | _ => rfl

theorem TableStep.madeCalls {c : Call abi} {m : Manger abi} {n : ℕ} {c' : Option (Call abi)} {os : List (Obs abi)}
    {env : Env} (h : TableStep s t env c m n c' os) (q k : ℕ) : Evt.madeCalls q k os = [] := by
  cases h with
  | @reg args r id m hm => cases id <;> rfl
  | _ => rfl

/-- Only dispatch `k` makes calls that are its own. -/
theorem Trans.madeCalls (h : Trans s t a s') (q k : ℕ) :
    Evt.madeCalls q k s'.log = Evt.madeCalls q k s.log ∨ ∃ slot pc, s.procer q = .dispatch slot k pc := by
  cases h with
  | table ha hc htab => exact .inl (by simp [htab.madeCalls q k])
  | life ha hc hl => exact .inl (hl.log_keeps (fun _ _ => rfl) (madeCalls_append q k))
  | @callSuber p slot j row num r args ht hc hp =>
    by_cases hpj : p = q ∧ j = k
    · obtain ⟨rfl, rfl⟩ := hpj
      exact .inr ⟨_, _, hp⟩
    · exact .inl (by simp [Evt.madeCalls, hpj])
  | call | halt | cancelJoin | wait | wake | cancelWait | cancelCb | rdlock | move => exact .inl rfl
  | post | signal | take | noTable | endDispatch | compare | cbRead =>
    exact .inl (by simp [State.endDispatch, Evt.madeCalls])

/-- With the step from `s₁` to `s₂`, dispatch `k` of queue `q` has gone through the table. -/
def EndsDispatch (s₁ s₂ : State abi) (q k : ℕ) : Prop :=
  (∃ slot pc a, s₁.procer q = .dispatch slot k pc ∧ next s₁ (.procer q, a) = some s₂) ∧ s₂.procer q = .top

/-- A dispatch is entered in the log as completed when it ends. -/
theorem next_dispatched (h : next s (t, a) = some s') (q : ℕ) :
    s'.dispatched q = s.dispatched q ∨ ∃ k, s'.dispatched q = s.dispatched q ++ [k] ∧ EndsDispatch s s' q k := by
  have hn := h
  cases (next_trans h).2 with
  | table ha hc htab => exact .inl (by simp [(htab.log q).2.2.2])
  | life ha hc hl => exact .inl (hl.log_keeps (fun _ _ => rfl) (dispatchedIn_append q))
  | @noTable p slot k ht hc hp =>
    by_cases hq : p = q
    · subst hq ht
      exact .inr ⟨k, by simp [dispatchedIn], ⟨slot, _, a, hp, hn⟩, by simp⟩
    · exact .inl (by simp [dispatchedIn, hq])
  | @endDispatch p slot k row ht hc hp =>
    by_cases hq : p = q
    · subst hq ht
      exact .inr ⟨k, by simp [State.endDispatch, dispatchedIn], ⟨slot, _, a, hp, hn⟩, by simp [State.endDispatch]⟩
    · exact .inl (by simp [State.endDispatch, dispatchedIn, hq])
  | call | halt | cancelJoin | wait | wake | cancelWait | cancelCb | rdlock | move => exact .inl rfl
  | post | signal | take | compare | callSuber | cbRead => exact .inl (by simp [dispatchedIn])

/-- Event `k` of queue `q` is `d`, and its dispatch ended in the run to `s`, with the step from `s₁` to `s₂`: it made the
calls due by the table that it had locked. -/
structure Served (ok : State abi → Thread × Act abi → Prop) (clients : ℕ) (s s₁ s₂ : State abi) (q k : ℕ)
    (d : EvtDesc abi) : Prop where
  accepted : (s.accepted q)[k]? = some d
  reach : Reach ok clients s₁
  ends : EndsDispatch s₁ s₂ q k
  later : Runs.ReachUnder next ok s₂ s
  calls : madeCalls q k s.log = due s₁.manger.rows d

variable {ok : State abi → Thread × Act abi → Prop}

/-- A row that covers the event is called. -/
theorem Row.suberCall_mem (r : Row abi) {evtID : EvtID} (h : r.covers evtID = true) : r.suberCall ∈ r.calls evtID := by
  have hpos := (r.covers_iff evtID).mp h
  rw [r.calls_eq, List.mem_replicate]
  exact ⟨by omega, rfl⟩

/-- So every subscription in that table whose identifiers match the event was called with it. -/
theorem Served.called {s₁ s₂ : State abi} {k : ℕ} {d : EvtDesc abi} (h : Served ok clients s s₁ s₂ q k d) {r : Row abi}
    (hr : r ∈ s₁.manger.rows) (hcov : r.covers d.evtID = true) :
    (r.operID, r.toObjPriv, d) ∈ madeCalls q k s.log := by
  rw [h.calls, due, List.mem_flatMap]
  exact ⟨r, hr, List.mem_map.mpr ⟨_, r.suberCall_mem hcov, rfl⟩⟩

/-- What holds of an event that was served goes on to hold. -/
theorem Served.step {s₁ s₂ : State abi} {k : ℕ} {d : EvtDesc abi} (h : Served ok clients s s₁ s₂ q k d)
    (hI : StopInv s q) (hL : LiveInv s) (hk : k ∈ s.dispatched q) (hok : ok s (t, a)) (hn : next s (t, a) = some s') :
    Served ok clients s' s₁ s₂ q k d where
  accepted := getElem?_of_prefix ((next_trans hn).2.queueStep hL q).accepted_isPrefix h.accepted
  reach := h.reach
  ends := h.ends
  later := h.later.tail (t, a) hok hn
  calls := by
    rcases (next_trans hn).2.madeCalls q k with heq | ⟨slot, pc, hp⟩
    · exact heq.trans h.calls
    · -- dispatch `k` is over
      rw [hI.dispatched, List.mem_range, State.dispatchNo, hp] at hk
      exact absurd hk (Nat.lt_irrefl k)

/-- **What is dispatched is served.** -/
theorem served_reach (hok : ∀ s x, ok s x → s.stopsIdle x = true ∧ s.keepsSlot x = true) (hr : Reach ok clients s) :
    ∀ k ∈ s.dispatched q, ∃ d s₁ s₂, Served ok clients s s₁ s₂ q k d := by
  refine Runs.ReachUnder.invariant
    (P := fun s => ∀ k ∈ s.dispatched q, ∃ d s₁ s₂, Served ok clients s s₁ s₂ q k d)
    (fun k hk => by simp [State.init, dispatchedIn] at hk) ?_ hr
  rintro s s' ⟨t, a⟩ hr ih hx hn k hk
  have hI : StopInv s q := stopInv_reach (Runs.ReachUnder.mono (fun s x h => (hok s x h).1) hr)
  have hr' : Reach ok clients s' := hr.tail (t, a) hx hn
  have hold : k ∈ s.dispatched q → ∃ d s₁ s₂, Served ok clients s' s₁ s₂ q k d := fun hk => by
    obtain ⟨d, s₁, s₂, hS⟩ := ih k hk
    exact ⟨d, s₁, s₂, hS.step hI (liveInv_reach hr) hk hx hn⟩
  rcases next_dispatched hn q with hsame | ⟨j, happ, hends⟩
  · exact hold (hsame ▸ hk)
  · rw [happ, List.mem_append, List.mem_singleton] at hk
    rcases hk with hk | rfl
    · exact hold hk
    · obtain ⟨⟨slot, pc, b, hp, hb⟩, htop⟩ := id hends
      have hreads : ∀ j x, (j, x) ∈ s'.reads q → (s'.accepted q)[j]? = some x :=
        (payload_integrity (Runs.ReachUnder.mono (fun s x h => (hok s x h).2) hr') q).1
      -- it was taken, so it was accepted
      have hu := ((liveInv_reach hr).live q (by simp [hp, ProcerPc.alive])).2
      obtain ⟨r, hfifo, hdisp⟩ := (queue_reach hr).2 q hu.mutexInit
      have hk : k < (s.accepted q).length := by
        have hlen := hfifo.length
        have htaken := (hdisp _ _ _ hp).2
        omega
      have hacc : (s'.accepted q)[k]? = some (s.accepted q)[k] :=
        getElem?_of_prefix ((next_trans hn).2.queueStep (liveInv_reach hr) q).accepted_isPrefix
          (List.getElem?_eq_getElem hk)
      have hfound : ∀ x, (k, x) ∈ readsIn q s'.log → x = (s.accepted q)[k] := fun x hx =>
        Option.some.inj ((hreads k x hx).symm.trans hacc)
      refine ⟨_, s, s', hacc, hr, hends, .refl, ?_⟩
      rw [madeCalls_eq hfound, dispatch_calls hr hp hb htop (fun x hx => congrArg EvtDesc.evtID (hfound x hx)), due_rows]

/-- **Nothing accepted is dropped.**  In every run whose cancellations take effect while the processor waits with its
queue empty, and whose posts keep the slots, an event accepted by a queue has been dispatched, with all the calls due
for it and so one for each subscription that it matches, or is in dispatch, or is queued; and when the queue is freed
every event it accepted has been dispatched so. -/
theorem accepted_not_dropped (hr : Reach (fun s x => s.stopsIdle x = true ∧ s.keepsSlot x = true) clients s) (q : ℕ)
    {k : ℕ} {d : EvtDesc abi} (hd : (s.accepted q)[k]? = some d) :
    (k ∈ s.dispatched q ∧ ∃ s₁ s₂,
        Served (fun s x => s.stopsIdle x = true ∧ s.keepsSlot x = true) clients s s₁ s₂ q k d ∧
        ∀ r ∈ s₁.manger.rows, r.covers d.evtID = true → (r.operID, r.toObjPriv, d) ∈ madeCalls q k s.log) ∨
      (s.queues q).freed = false ∧
        ((∃ slot pc, s.procer q = .dispatch slot k pc) ∨
          (s.taken q).length ≤ k ∧ (s.queue q).contents[k - (s.taken q).length]? = some d) := by
  obtain ⟨hU, hQ⟩ := queue_reach hr
  have hI : StopInv s q := stopInv_reach (hr.mono fun s x h => h.1)
  have hk := (List.getElem?_eq_some_iff.mp hd).1
  have hi : (s.queues q).mutexInit = true := by
    by_contra hi
    simp [(hU q (by simpa using hi)).2.1] at hk
  obtain ⟨r, hfifo, hdisp⟩ := hQ q hi
  rcases Nat.lt_or_ge k (s.taken q).length with htaken | htaken
  · by_cases hdis : ∃ slot pc, s.procer q = .dispatch slot k pc
    · refine .inr ⟨?_, .inl hdis⟩
      obtain ⟨slot, pc, hp⟩ := hdis
      by_contra hf
      simp [hI.freed (by simpa using hf)] at hp
    · have hmem : k ∈ s.dispatched q := by
        rw [hI.dispatched, List.mem_range, State.dispatchNo]
        split
        · rename_i slot k' pc hp
          have hk' := (hdisp _ _ _ hp).2
          have hne : k ≠ k' := fun h => hdis ⟨slot, pc, h ▸ hp⟩
          omega
        · exact htaken
      obtain ⟨d', s₁, s₂, hS⟩ := served_reach (fun _ _ h => h) hr k hmem
      obtain rfl := Option.some.inj (hS.accepted.symm.trans hd)
      exact .inl ⟨hmem, s₁, s₂, hS, fun r hr hcov => hS.called hr hcov⟩
  · refine .inr ⟨?_, .inr ⟨htaken, ?_⟩⟩
    · by_contra hf
      have hended := (hI.ended (hI.freed (by simpa using hf))).2
      rw [hended] at hk
      omega
    · rw [hfifo.content, List.getElem?_append_right htaken] at hd
      rw [hfifo.repr.contents]
      exact hd

/-- Client `0` starts a manager with one subscription. -/
def startedDefault : List (Thread × Act lp64) :=
  [(.client 0, .call (.initEvtManger (some ⟨0, 0, 0, 0⟩))), (.client 0, .go),
   (.client 0, .call (.regOper ⟨0⟩)), (.client 0, .go), (.client 0, .go),
   (.client 0, .call (.subEvts 0 [evtIDTestKeepAlive] ⟨1, 1⟩)), (.client 0, .go), (.client 0, .go)] ++
    enabling (.client 0)

/-- Client `0` posts, to the return of the call. -/
def postedKeepAlive : List (Thread × Act lp64) :=
  postOf (defineEvtDesc lp64 evtIDTestKeepAlive) ++ [(.client 0, .go)]

/-- Client `0` disables the manager, and the processor is cancelled. -/
def disabledAtOnce : List (Thread × Act lp64) :=
  [(.client 0, .call .disableEvtManger), (.client 0, .go), (.procer 0, .cancel)] ++ List.replicate 5 (.client 0, .go)

/-- Two posts succeed; the processor is cancelled in the callback for the first.  When the call that disabled the
manager has returned, the queue is freed, and neither event went through the subscription table. -/
theorem accepted_dropped :
    ∃ s : State lp64, Reach (fun _ _ => True) 1 s ∧ s.log.getLast? = some (.ret (.client 0) none) ∧
      (s.queues 0).freed = true ∧ (s.accepted 0).length = 2 ∧ s.dispatched 0 = [] := by
  obtain ⟨s, hr, hs⟩ := reach_of_run (fun _ _ => True) 1
    (startedDefault ++ postedKeepAlive ++ List.replicate 6 (.procer 0, .go) ++ postedKeepAlive ++ disabledAtOnce)
    (fun s => decide (s.log.getLast? = some (.ret (.client 0) none) ∧ (s.queues 0).freed = true ∧
      (s.accepted 0).length = 2 ∧ s.dispatched 0 = [])) (by decide +kernel)
  obtain ⟨hlast, hfreed, hacc, hdisp⟩ := of_decide_eq_true hs
  exact ⟨s, hr, hlast, hfreed, hacc, hdisp⟩

/-- The second event is posted while the first is in its callback; both are called for, and the manager is disabled. -/
def servedTwice : List (Thread × Act lp64) :=
  startedDefault ++ postedKeepAlive ++ List.replicate 6 (.procer 0, .go) ++ postedKeepAlive ++ [(.procer 0, .cbRet)] ++
    List.replicate 24 (.procer 0, .go) ++ [(.procer 0, .cbRet)] ++ List.replicate 19 (.procer 0, .go) ++ disabledAtOnce

/-- Two events, of which the second is posted while the first is dispatched, are both called for before the processor
is cancelled. -/
theorem accepted_not_dropped_two :
    ∃ s : State lp64, (s.queues 0).freed = true ∧ (s.accepted 0).length = 2 ∧
      (madeCalls 0 0 s.log).length = 1 ∧ (madeCalls 0 1 s.log).length = 1 ∧
      ∀ k d, (s.accepted 0)[k]? = some d → ∃ s₁ s₂,
        Served (fun s x => s.stopsIdle x = true ∧ s.keepsSlot x = true) 1 s s₁ s₂ 0 k d := by
  obtain ⟨s, hr, hs⟩ := reach_of_run
    (fun (s : State lp64) (x : Thread × Act lp64) => s.stopsIdle x = true ∧ s.keepsSlot x = true) 1 servedTwice
    (fun s => decide ((s.queues 0).freed = true ∧ (s.accepted 0).length = 2 ∧
      (madeCalls 0 0 s.log).length = 1 ∧ (madeCalls 0 1 s.log).length = 1)) (by decide +kernel)
  obtain ⟨hfreed, hacc, hfirst, hsecond⟩ := of_decide_eq_true hs
  refine ⟨s, hfreed, hacc, hfirst, hsecond, fun k d hd => ?_⟩
  rcases accepted_not_dropped hr 0 hd with ⟨-, s₁, s₂, hS, -⟩ | ⟨hlive, -⟩
  · exact ⟨s₁, s₂, hS⟩
  · simp [hfreed] at hlive

end PlatIF.Evt
