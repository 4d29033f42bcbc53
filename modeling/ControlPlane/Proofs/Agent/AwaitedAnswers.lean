import ControlPlane.Proofs.Agent.QueueOrder

/-!
# Answers that are waited for

The answer to a request reaches the sender of this request and no other, as long as the sender
waits. A sender that does not wait any longer has looked in vain when it had no time left.
-/

namespace ControlPlane.Agent.Traffic
variable {log : List Event} {t t' : Traffic} {e : Event} {id i session : Nat} {answer : Answer}

def progress? (t : Traffic) (id : Nat) : Option Progress := (t.registry.send? id).map (·.progress)

theorem progress?_eq_some {p : Progress} :
    t.progress? id = some p ↔ ∃ x, t.registry.send? id = some x ∧ x.progress = p := by
  simp [progress?]

theorem progress?_eq_none : t.progress? id = none ↔ t.registry.send? id = none := by
  simp [progress?]

/-- What is known of a request, of its send and of its answer. A request that is yet to be answered
is waited for, or else its sender has looked in vain when it had no time left. -/
structure Fits (log : List Event) (t : Traffic) (id : Nat) : Prop where
  lies : t.Has id → t.progress? id = some .queued ∨ (t.progress? id = none ∧ Overslept id log)
  heard : ∀ answer, (id, answer) ∈ hearings log →
    t.progress? id = some (.answered answer) ∨ (id, .ok answer) ∈ results log
  answered : ∀ answer, t.progress? id = some (.answered answer) → (id, answer) ∈ hearings log
  ended : ∀ result, (id, result) ∈ results log → ∀ answer, result = .ok answer ↔
    (id, answer) ∈ hearings log
  awake : t.progress? id ≠ none → ¬ Overslept id log

theorem Overslept.mono (h : Overslept id log) (e : Event) : Overslept id (log ++ [e]) := by
  obtain ⟨call, time, entered, result, mem, late⟩ := h
  exact ⟨call, time, entered, result, List.mem_append_left _ mem, late⟩

theorem overslept_append : Overslept id (log ++ [e]) ↔ Overslept id log ∨
    ∃ call time entered result, e = .looked call time entered result ∧ call.id = id ∧
      call.deadline ≤ time := by
  constructor
  · rintro ⟨call, time, entered, result, mem, late⟩
    rcases List.mem_append.1 mem with mem | mem
    · exact .inl ⟨call, time, entered, result, mem, late⟩
    · exact .inr ⟨call, time, entered, result, (List.mem_singleton.1 mem).symm, late⟩
  · rintro (past | ⟨call, time, entered, result, rfl, late⟩)
    · exact past.mono e
    · exact ⟨call, time, entered, result, by simp, late⟩

/-- Something happens to other requests. -/
theorem Fits.beside (h : Fits log t i) (has : t'.Has i → t.Has i)
    (missing : t'.progress? i = none ↔ t.progress? i = none)
    (queued : t'.Has i → t.progress? i = some .queued → t'.progress? i = some .queued)
    (answered : ∀ answer, t'.progress? i = some (.answered answer) ↔
      t.progress? i = some (.answered answer))
    (hearing : ∀ answer, e.hearing? ≠ some (i, answer))
    (result : ∀ result, e.result? ≠ some (i, result))
    (look : ∀ call time entered result, e = .looked call time entered result → call.id ≠ i) :
    Fits (log ++ [e]) t' i := by
  have hearings' : ∀ answer, (i, answer) ∈ hearings (log ++ [e]) ↔
    (i, answer) ∈ hearings log := by
    intro answer
    simp [hearing answer]
  have results' : ∀ r, (i, r) ∈ results (log ++ [e]) ↔ (i, r) ∈ results log := by
    intro r
    simp [result r]
  have overslept : Overslept i (log ++ [e]) ↔ Overslept i log := by
    rw [overslept_append]
    refine ⟨fun h => h.elim id ?_, .inl⟩
    rintro ⟨call, time, entered, result, same, named, -⟩
    exact absurd named (look call time entered result same)
  refine ⟨fun lies => ?_, fun answer mem => ?_, fun answer settled => ?_,
    fun r mem answer => ?_, fun there => ?_⟩
  · rcases h.lies (has lies) with waits | ⟨gone, late⟩
    · exact .inl (queued lies waits)
    · exact .inr ⟨missing.2 gone, late.mono e⟩
  · rw [answered, results']
    exact h.heard answer ((hearings' answer).1 mem)
  · exact (hearings' answer).2 (h.answered answer ((answered answer).1 settled))
  · rw [hearings']
    exact h.ended r ((results' r).1 mem) answer
  · rw [overslept]
    exact h.awake fun gone => there (missing.2 gone)

section
variable {p : Progress} {call : Call} {now : Nat}

/-- A send that is over for its sender is no longer under way. -/
theorem Tracked.settled (h : Tracked log t) {result : Except Failure Answer}
    (mem : (id, result) ∈ results log) :
    t.progress? id = none := by
  by_contra there
  obtain ⟨call, mem', named⟩ := h.sender id fun missing => there (progress?_eq_none.2 missing)
  exact (h.ended id result mem).2 call mem' named

theorem progress?_of_sends {r' : Registry} {x : Send}
    (sends : ∀ i, r'.send? i = if i = id then some { x with progress := p }
      else t.registry.send? i) (i : Nat) :
    (r'.send? i).map (·.progress) = if i = id then some p else t.progress? i := by
  rw [sends]
  split <;> rfl

theorem progress?_setProgress (found : t.progress? id = some .queued) (i : Nat) :
    ((t.registry.setProgress id p).send? i).map (·.progress) = if i = id then some p
      else t.progress? i := by
  obtain ⟨x, found, -⟩ := progress?_eq_some.1 found
  rw [Registry.send?_setProgress]
  split
  next here =>
    rw [here, found]
    rfl
  · rfl

/-- Where a request is after its send has gone on. -/
theorem has_of_fills {request : Request} {entered : Bool} (has : t'.Has i)
    (hands : t'.hands = t.hands) (fills : t.registry.Fills t'.registry session request entered) :
    t.Has i ∨ (i = request.id ∧ entered = true) := by
  rcases has with mem | ⟨session', mem⟩
  · exact .inl (.inl (hands ▸ mem))
  · rw [fills session'] at mem
    split at mem
    next here =>
      rw [List.map_append] at mem
      rcases List.mem_append.1 mem with mem | mem
      · exact .inl (.inr ⟨session', mem⟩)
      · exact .inr ⟨List.mem_singleton.1 mem, here.2⟩
    · exact .inl (.inr ⟨session', mem⟩)

theorem has_of_part {before after : List Nat} (split : t.hands = before ++ id :: after)
    (hands : t'.hands = before ++ after)
    (queue : t'.registry.queue = t.registry.queue) (has : t'.Has i) :
    t.Has i := by
  rcases has with mem | ⟨session, mem⟩
  · rw [hands] at mem
    refine .inl (split ▸ ?_)
    simp only [List.mem_append, List.mem_cons] at mem ⊢
    exact mem.imp_right .inr
  · exact .inr ⟨session, queue ▸ mem⟩

theorem progress?_of_promoted {before after : Option Send} (h : Registry.Promoted before after) :
    after.map (·.progress) = before.map (·.progress) ∨
      (before.map (·.progress) = some .waiting ∧ after.map (·.progress) = some .admitted) := by
  rcases h with same | ⟨x, same, waits, moved⟩
  · exact .inl (by rw [same])
  · exact .inr ⟨by rw [same, Option.map_some, waits], by rw [moved, Option.map_some]⟩

/-- At most the place of another send has changed. -/
theorem Fits.apart (h : Fits log t i) (has : t'.Has i → t.Has i)
    (progress : t'.progress? i = t.progress? i ∨
      (t.progress? i = some .waiting ∧ t'.progress? i = some .admitted))
    (hearing : ∀ answer, e.hearing? ≠ some (i, answer))
    (result : ∀ result, e.result? ≠ some (i, result))
    (look : ∀ call time entered result, e = .looked call time entered result → call.id ≠ i) :
    Fits (log ++ [e]) t' i := by
  refine h.beside has ?_ ?_ ?_ hearing result look <;>
    rcases progress with same | ⟨waits, admitted⟩
  · rw [same]
  · simp [waits, admitted]
  · exact fun _ queued => same.trans queued
  · simp [waits]
  · exact fun _ => by rw [same]
  · simp [waits, admitted]

theorem Fits.begin (h : ∀ i, Fits log t i) (tracked : Tracked log t) (ordered : Ordered log t)
    {envelope : Envelope} {now deadline : Nat} {entered : Bool} {r' : Registry}
    (begins : t.registry.Begins envelope session entered r') (i : Nat) :
    Fits (log ++ [.begun ⟨t.registry.fresh, envelope, session, deadline⟩ entered])
      { t with
        registry := r', clock := now, calls := t.calls ++
          [⟨t.registry.fresh, envelope, session, deadline⟩] }
      i := by
  obtain ⟨p, sends, stage⟩ := begins.sends
  by_cases here : i = t.registry.fresh
  · subst here
    have new := ordered.new tracked
    have mine : (r'.send? t.registry.fresh).map (·.progress) = some p := by
      rw [sends, if_pos rfl]; rfl
    have notOver : ∀ answer, p ≠ .answered answer := by
      rintro answer rfl
      cases entered <;> simp at stage
    refine ⟨fun has => .inl ?_, fun answer mem => ?_, fun answer settled => ?_,
      fun result mem => ?_, fun _ late => ?_⟩
    · rcases has_of_fills (t := t) has rfl begins.fills with has | ⟨-, rfl⟩
      · exact absurd (ordered.entered_of_has has) new
      · exact mine.trans (congrArg some stage)
    · have mem : (t.registry.fresh, answer) ∈ hearings log := by simpa [Event.hearing?] using mem
      exact absurd (ordered.entered_of_hearing mem) new
    · exact absurd (Option.some.inj (mine.symm.trans settled)) (notOver answer)
    · have mem : (t.registry.fresh, result) ∈ results log := by simpa [Event.result?] using mem
      obtain ⟨call, mem, named⟩ := (tracked.ended _ result mem).1
      exact absurd named (Nat.ne_of_lt (tracked.below call mem).1)
    · rcases overslept_append.1 late with ⟨call, time, entered', result, mem, named, -⟩
        | ⟨call, _, _, _, same, -⟩
      · exact absurd named
          (Nat.ne_of_lt (tracked.below call (tracked.looks call time entered' result mem).1).1)
      · cases same
  · refine (h i).apart (fun has => ?_) (.inl ?_) (fun _ same => by cases same)
      (fun _ same => by cases same) fun _ _ _ _ same => by cases same
    · exact (has_of_fills (t := t) has rfl begins.fills).elim id fun own => absurd own.1 here
    · show (r'.send? i).map _ = _
      rw [sends, if_neg here]
      rfl

theorem Fits.wait (h : ∀ i, Fits log t i) (tracked : Tracked log t) {x : Send}
    (found : t.registry.send? call.id = some x) (request : x.request.id = call.id)
    {entered observed : Bool} {r' : Registry} (early : now < call.deadline)
    (goes : t.registry.Goes call.id x entered p r')
    (pending : (∀ answer, p ≠ .answered answer) ∧ ∀ cause, p ≠ .lost cause) (i : Nat) :
    Fits (log ++ [.looked call now observed none]) { t with registry := r', clock := now } i := by
  have progress := progress?_of_sends (t := t) goes.sends
  by_cases here : i = call.id
  · subst here
    have mine : (r'.send? call.id).map (·.progress) = some p := by rw [progress, if_pos rfl]
    have before : t.progress? call.id = some x.progress := progress?_eq_some.2 ⟨x, found, rfl⟩
    -- The send either is where it was, or its request has entered the queue.
    have course : (entered = true ∧ x.progress = .admitted ∧ p = .queued) ∨
      (entered = false ∧ p = x.progress) := by
      have course := goes.course
      cases entered with
      | true => exact .inl ⟨rfl, course.1, course.2.2⟩
      | false =>
        rcases course with ⟨same, -⟩ | ⟨-, same⟩
        · exact .inr ⟨rfl, same⟩
        · exact absurd same (pending.2 _)
    have unheard : ∀ answer, (call.id, answer) ∉ hearings log := by
      intro answer mem
      rcases (h call.id).heard answer mem with settled | settled
      · rw [before] at settled
        rcases course with ⟨-, admitted, -⟩ | ⟨-, same⟩
        · rw [admitted] at settled
          cases settled
        · exact pending.1 answer (same.trans (Option.some.inj settled))
      · rw [tracked.settled settled] at before
        cases before
    refine ⟨fun has => .inl ?_, fun answer mem => ?_, fun answer settled => ?_,
      fun result mem => ?_, fun _ late => ?_⟩
    · refine mine.trans (congrArg some ?_)
      rcases course with ⟨-, -, same⟩ | ⟨outside, same⟩
      · exact same
      · rcases has_of_fills (t := t) has rfl goes.fills with has | ⟨-, inside⟩
        · rcases (h call.id).lies has with queued | ⟨gone, -⟩
          · exact same.trans (Option.some.inj (before.symm.trans queued))
          · rw [before] at gone
            cases gone
        · rw [outside] at inside
          cases inside
    · exact absurd (by simpa [Event.hearing?] using mem) (unheard answer)
    · exact absurd (Option.some.inj (mine.symm.trans settled)) (pending.1 answer)
    · have mem : (call.id, result) ∈ results log := by simpa [Event.result?] using mem
      rw [tracked.settled mem] at before
      cases before
    · rcases overslept_append.1 late with late | ⟨call', time, _, _, same, -, late⟩
      · exact (h call.id).awake (by simp [before]) late
      · cases same
        omega
  · refine (h i).apart (fun has => ?_) (.inl ?_) (fun _ same => by cases same)
      (fun _ same => by cases same) fun call' time _ _ same => ?_
    · exact (has_of_fills (t := t) has rfl goes.fills).elim id fun own =>
        absurd (own.1.trans request) here
    · show (r'.send? i).map _ = _
      rw [progress, if_neg here]
    · cases same
      exact fun named => here named.symm

theorem Fits.finish (h : ∀ i, Fits log t i) (tracked : Tracked log t) {before after : List Call}
    {x : Send} (found : t.registry.send? call.id = some x) (request : x.request.id = call.id)
    {entered observed : Bool} {result : Except Failure Answer} {r' : Registry}
    (ends : Ends t.registry call now x entered p result r') (i : Nat) :
    Fits (log ++ [.looked call now observed (some result)])
      { t with registry := r', clock := now, calls := before ++ after } i := by
  by_cases here : i = call.id
  · subst here
    have before : t.progress? call.id = some x.progress := progress?_eq_some.2 ⟨x, found, rfl⟩
    have notOver : ∀ result, (call.id, result) ∉ results log := by
      intro result mem
      rw [tracked.settled mem] at before
      cases before
    have gone : (r'.send? call.id).map (·.progress) = none := by rw [ends.gone]; rfl
    have hearings' : ∀ answer, (call.id, answer) ∈
      hearings (log ++ [.looked call now observed (some result)]) ↔
        (call.id, answer) ∈ hearings log := by
      intro answer
      simp [Event.hearing?]
    have same : ∀ answer, result = .ok answer ↔ (call.id, answer) ∈ hearings log := by
      intro answer
      rw [← ends.answered]
      have course := ends.course
      constructor
      · rintro rfl
        cases entered with
        | true => cases course.2.2
        | false =>
          rcases course with ⟨same, -⟩ | ⟨-, same⟩
          · exact (h call.id).answered answer (before.trans (congrArg some same.symm))
          · cases same
      · intro mem
        rcases (h call.id).heard answer mem with settled | settled
        · have settled : x.progress = .answered answer :=
            Option.some.inj (before.symm.trans settled)
          cases entered with
          | true =>
            rw [settled] at course
            cases course.1
          | false =>
            rcases course with ⟨same, -⟩ | ⟨waited, -⟩
            · exact same.trans settled
            · rw [settled] at waited
              rcases waited with same | same <;> cases same
        · exact absurd settled (notOver _)
    refine ⟨fun has => .inr ⟨gone, ?_⟩, fun answer mem => .inr ?_, fun answer settled => ?_,
      fun result' mem answer => ?_, fun there => absurd gone there⟩
    · -- The request lies there for nobody, so there was no time left.
      have late : p = .queued := by
        have course := ends.course
        cases entered with
        | true => exact course.2.2
        | false =>
          have queued : x.progress = .queued := by
            rcases has_of_fills (t := t) has rfl ends.fills with has | ⟨-, inside⟩
            · rcases (h call.id).lies has with queued | ⟨missing, -⟩
              · exact Option.some.inj (before.symm.trans queued)
              · rw [before] at missing
                cases missing
            · cases inside
          rcases course with ⟨same, -⟩ | ⟨waited, -⟩
          · exact same.trans queued
          · rw [queued] at waited
            rcases waited with same | same <;> cases same
      exact ⟨call, now, observed, some result, by simp, rfl, ends.late late⟩
    · rw [(same answer).2 ((hearings' answer).1 mem)]
      simp [Event.result?]
    · cases gone.symm.trans settled
    · rw [hearings', ← same]
      rw [results_append] at mem
      rcases List.mem_append.1 mem with mem | mem
      · exact absurd mem (notOver _)
      · cases List.mem_singleton.1 mem
        exact Iff.rfl
  · refine (h i).apart (fun has => ?_) (progress?_of_promoted (ends.others i here))
      (fun _ same => by cases same) (fun result' same => ?_) fun call' time _ _ same => ?_
    · exact (has_of_fills (t := t) has rfl ends.fills).elim id fun own =>
        absurd (own.1.trans request) here
    · cases same
      exact here rfl
    · cases same
      exact fun named => here named.symm

/-- A request goes out of the hands of a host while its sender waits. -/
theorem Fits.settle (h : ∀ i, Fits log t i) (tracked : Tracked log t) (ordered : Ordered log t)
    {before after : List Nat} (split : t.hands = before ++ id :: after)
    (queued : t.progress? id = some .queued) (parting : e.parting? = some id)
    (hearing : ∀ answer, e.hearing? = some (id, answer) ↔ p = .answered answer)
    (result : e.result? = none)
    (look : ∀ call time entered result, e ≠ .looked call time entered result)
    (registry : t'.registry = t.registry.setProgress id p)
    (hands : t'.hands = before ++ after) (i : Nat) :
    Fits (log ++ [e]) t' i := by
  have progress : t'.progress? i = if i = id then some p else t.progress? i := by
    rw [← progress?_setProgress queued i, progress?, registry]
  have gone : ¬ t'.Has id := ordered.gone split hands (by rw [registry]; rfl)
  by_cases here : i = id
  · subst here
    rw [if_pos rfl] at progress
    have unheard : ∀ answer, (i, answer) ∉ hearings log := by
      intro answer mem
      rcases (h i).heard answer mem with settled | settled
      · rw [queued] at settled
        cases settled
      · rw [tracked.settled settled] at queued
        cases queued
    have now : ∀ answer, (i, answer) ∈ hearings (log ++ [e]) ↔ p = .answered answer := by
      intro answer
      rw [← hearing answer]
      simp [unheard answer]
    refine ⟨fun has => absurd has gone, fun answer mem => .inl ?_,
      fun answer settled => ?_, fun r mem => ?_, fun _ late => ?_⟩
    · rw [progress, (now answer).1 mem]
    · exact (now answer).2 (Option.some.inj (progress.symm.trans settled))
    · have mem : (i, r) ∈ results log := by simpa [result] using mem
      rw [tracked.settled mem] at queued
      cases queued
    · rcases overslept_append.1 late with late | ⟨call, time, entered, r, same, -⟩
      · exact (h i).awake (by rw [queued]; exact nofun) late
      · exact look call time entered r same
  · rw [if_neg here] at progress
    refine (h i).apart (fun has => ?_) (.inl progress) (fun answer same => ?_) (fun r same => ?_)
      fun call time entered r same => absurd same (look call time entered r)
    · exact has_of_part split hands (by rw [registry]; rfl) has
    · exact here (Option.some.inj ((Event.parting?_of_hearing? same).symm.trans parting))
    · rw [result] at same
      cases same

theorem Fits.close (h : ∀ i, Fits log t i) (tracked : Tracked log t) (ordered : Ordered log t)
    (session i : Nat) :
    Fits (log ++ [.closed session]) { t with registry := t.registry.close session } i := by
  have closes := Registry.closes tracked.numbered session
  -- What lies somewhere now lay there before, and not in the queue that is gone.
  have has : Has { t with registry := t.registry.close session } i →
      t.Has i ∧ i ∉ (t.registry.queue session).map (·.id) := by
    rintro (mem | ⟨other, mem⟩)
    · obtain ⟨reader, read⟩ := ordered.entered_of_parting (.inl mem)
      exact ⟨.inl mem, ordered.not_queued_of_read read session⟩
    · change i ∈ ((t.registry.close session).queue other).map _ at mem
      rw [closes.queue] at mem
      split at mem
      · cases mem
      next apart =>
        refine ⟨.inr ⟨other, mem⟩, fun mem' => apart ?_⟩
        have same := ordered.eq_of_entries (ordered.entered_of_queue mem)
          (ordered.entered_of_queue mem') rfl
        exact congrArg Prod.fst same
  have abandoned : Traffic.progress? { t with registry := t.registry.close session } i =
    t.progress? i ∨ (t.progress? i = some .queued ∧
        Traffic.progress? { t with registry := t.registry.close session } i =
        some (.lost .requestDropped)) := by
    rcases closes.sends i with same | ⟨x, found, queued, lost⟩
    · exact .inl (congrArg (Option.map Send.progress) same)
    · refine .inr ⟨progress?_eq_some.2 ⟨x, found, queued⟩, ?_⟩
      exact progress?_eq_some.2 ⟨_, lost, rfl⟩
  refine (h i).beside (fun lies => (has lies).1) ?_ (fun lies queued => ?_)
    (fun answer => ?_) nofun nofun nofun
  · rcases abandoned with same | ⟨queued, lost⟩
    · rw [same]
    · simp [queued, lost]
  · have spared := closes.spared i fun request mem same =>
      (has lies).2 (same ▸ List.mem_map_of_mem mem)
    exact (congrArg (Option.map Send.progress) spared).trans queued
  · rcases abandoned with same | ⟨queued, lost⟩
    · rw [same]
    · simp [queued, lost]

theorem Fits.step (h : ∀ i, Fits log t i) (tracked : Tracked log t) (ordered : Ordered log t)
    (step : Step t e t') (i : Nat) : Fits (log ++ [e]) t' i := by
  have numbered := tracked.numbered
  cases step with
  | connect host =>
    have opens := Registry.opens numbered host
    refine (h i).apart (fun has => ?_) (.inl ?_) nofun nofun nofun
    · exact has.imp id fun ⟨session, mem⟩ => ⟨session, by rw [← opens.queue]; exact mem⟩
    · show ((t.registry.connect host).2.send? i).map _ = _
      rw [opens.sends]
      rfl
  | disconnect host => exact (h i).apart id (.inl rfl) nofun nofun nofun
  | close session => exact Fits.close h tracked ordered session i
  | refuse envelope refused =>
    have same := Registry.begin_refused refused
    refine (h i).apart (fun has => ?_) (.inl ?_) nofun nofun nofun
    · simpa only [same] using has
    · simp only [same]
  | @begin envelope id session now later begun linked =>
    obtain ⟨rfl, session', linked', old, begins⟩ :=
      Registry.begins numbered (Prod.ext begun rfl)
    cases linked.symm.trans linked'
    exact Fits.begin h tracked ordered begins i
  | @wait call mem now later pending =>
    obtain ⟨x, found, request, here⟩ := tracked.send mem
    obtain ⟨early, entered, p, goes, goesOn⟩ := waits numbered found pending
    exact Fits.wait h tracked found (by rw [request]) early goes goesOn i
  | @finish before after call split now later result ended =>
    have mem : call ∈ t.calls := by simp [split]
    obtain ⟨x, found, request, here⟩ := tracked.send mem
    obtain ⟨entered, p, ends⟩ := ends numbered found ended
    exact Fits.finish h tracked found (by rw [request]) ends i
  | @read session request received =>
    have reads := Registry.reads numbered (Prod.ext received rfl)
    refine (h i).apart (fun has => ?_) (progress?_of_promoted (reads.sends i)) nofun nofun nofun
    have first : request.id ∈ (t.registry.queue session).map (·.id) := by rw [reads.first]; simp
    rcases has with mem | ⟨other, mem⟩
    · rcases List.mem_cons.1 mem with rfl | mem
      · exact .inr ⟨session, first⟩
      · exact .inl mem
    · refine .inr ⟨other, ?_⟩
      by_cases here : other = session
      · subst here
        rw [reads.first]
        exact List.mem_cons_of_mem _ mem
      · rw [← reads.others other here]
        exact mem
  | @respond before after id split answer now later =>
    rcases (h id).lies (.inl (by simp [split])) with queued | ⟨gone, -⟩
    · obtain ⟨x, found, waits⟩ := progress?_eq_some.1 queued
      rw [Registry.respond_queued found waits]
      refine Fits.settle h tracked ordered split queued rfl (fun answer' => ?_)
        rfl (by exact nofun) rfl rfl i
      simp [Event.hearing?]
    · rw [Registry.respond_missing (progress?_eq_none.1 gone)]
      exact (h i).apart (has_of_part split rfl rfl) (.inl rfl) nofun nofun nofun
  | @drop before after id split =>
    rcases (h id).lies (.inl (by simp [split])) with queued | ⟨gone, -⟩
    · obtain ⟨x, found, waits⟩ := progress?_eq_some.1 queued
      rw [Registry.drop_queued found waits]
      refine Fits.settle h tracked ordered split queued rfl (fun answer' => ?_)
        rfl (by exact nofun) rfl rfl i
      simp [Event.hearing?]
    · rw [Registry.drop_missing (progress?_eq_none.1 gone)]
      exact (h i).apart (has_of_part split rfl rfl) (.inl rfl) nofun nofun nofun

end

end ControlPlane.Agent.Traffic
