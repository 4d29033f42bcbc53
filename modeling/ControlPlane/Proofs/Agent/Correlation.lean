import ControlPlane.Proofs.Agent.AwaitedAnswers
import ControlPlane.Proofs.Agent.Links
import ControlPlane.Proofs.Logs
import Mathlib.Data.List.Induction
import Mathlib.Data.List.Pairwise

/-!
# Answers find their senders

In every history a request is read once at most, by the session that its host was linked to when it
was sent, and after those that were in the queue before it. Its answer ends its own send if it comes
before the sender has run out of time, and whoever answers is told whether it does.
-/

namespace ControlPlane.Agent.Traffic
variable {depth : Nat} {log before after : List Event} {t t' : Traffic} {e : Event}
  {id session : Nat} {answer : Answer} {call : Call}

structure Regular (depth : Nat) (log : List Event) (t : Traffic) : Prop where
  tracked : Tracked log t
  ordered : Ordered log t
  fits : ∀ id, Fits log t id
  bounded : t.registry.Bounded
  places : t.registry.depth = max depth 1

theorem bounded_step (h : Tracked log t) (bounded : t.registry.Bounded) (step : Step t e t') :
    t'.registry.Bounded ∧ t'.registry.depth = t.registry.depth := by
  have numbered := h.numbered
  cases step with
  | connect host =>
    have opens := Registry.opens numbered host
    exact ⟨opens.bounded bounded, opens.depth⟩
  | disconnect host => exact ⟨bounded, rfl⟩
  | close session =>
    have closes := Registry.closes numbered session
    exact ⟨closes.bounded bounded, closes.depth⟩
  | refuse envelope refused =>
    rw [Registry.begin_refused refused]
    exact ⟨bounded, rfl⟩
  | @begin envelope id session now later begun linked =>
    obtain ⟨-, _, -, -, begins⟩ := Registry.begins numbered (Prod.ext begun rfl)
    exact ⟨begins.bounded bounded, begins.depth⟩
  | @wait call mem now later pending =>
    obtain ⟨x, found, -⟩ := h.send mem
    obtain ⟨-, _, _, goes, -⟩ := waits numbered found pending
    exact ⟨goes.bounded bounded, goes.depth⟩
  | @finish before after call split now later result ended =>
    have mem : call ∈ t.calls := by simp [split]
    obtain ⟨x, found, -⟩ := h.send mem
    obtain ⟨_, _, ends⟩ := ends numbered found ended
    exact ⟨ends.bounded bounded, ends.depth⟩
  | @read session request received =>
    have reads := Registry.reads numbered (Prod.ext received rfl)
    exact ⟨reads.bounded bounded, reads.depth⟩
  | @respond before after id split answer now later =>
    rcases t.registry.respond_cases id answer with same | ⟨x, found, -, same⟩ <;> rw [same]
    · exact ⟨bounded, rfl⟩
    · exact ⟨bounded.settle numbered found nofun, rfl⟩
  | @drop before after id split =>
    rcases t.registry.drop_cases id with same | ⟨x, found, -, same⟩ <;> rw [same]
    · exact ⟨bounded, rfl⟩
    · exact ⟨bounded.settle numbered found nofun, rfl⟩

theorem Fits.start (depth id : Nat) : Fits [] { registry := .ofDepth depth } id where
  lies := by rintro (mem | ⟨session, mem⟩) <;> cases mem
  heard := by simp [hearings]
  answered := fun answer settled => by cases settled
  ended := by simp [results]
  awake := fun there => absurd rfl there

theorem History.regular (history : History depth log t) : Regular depth log t := by
  induction history with
  | start =>
    refine ⟨Tracked.start depth, Ordered.start depth, Fits.start depth, fun session => ?_, rfl⟩
    exact Nat.zero_le _
  | step past step ih =>
    obtain ⟨bounded, places⟩ := bounded_step ih.tracked ih.bounded step
    exact ⟨ih.tracked.step step, ih.ordered.step ih.tracked step,
      Fits.step ih.fits ih.tracked ih.ordered step, bounded, places.trans ih.places⟩

theorem Prompt.at {slack : Nat} (prompt : Prompt slack log) (split : log = before ++ e :: after)
    {time : Nat} (timed : e.time? = some time) : ∀ call ∈ begun before,
      (∀ result, (call.id, result) ∉ results before) → time ≤ call.deadline + slack := by
  induction prompt generalizing after with
  | start => simp at split
  | step past bound ih =>
    rcases append_singleton_split split with ⟨rfl, rfl, -⟩ | ⟨_, -, earlier⟩
    · exact bound time timed
    · exact ih earlier

theorem History.at (history : History depth log t) (split : log = before ++ e :: after) :
    ∃ t₀ t₁, History depth before t₀ ∧ Step t₀ e t₁ := by
  induction history generalizing after with
  | start => simp at split
  | step past step ih =>
    rcases append_singleton_split split with ⟨rfl, rfl, -⟩ | ⟨_, -, earlier⟩
    · exact ⟨_, _, past, step⟩
    · exact ih earlier

/-- A request enters a queue only as long as its send is not over. -/
theorem Tracked.entering (h : Tracked log t) (step : Step t e t')
    (entry : e.entry? = some (session, id)) (result : Except Failure Answer) :
    (id, result) ∉ results log := by
  intro mem
  obtain ⟨⟨earlier, begun, named⟩, settled⟩ := h.ended id result mem
  obtain ⟨call, -, own, same | ⟨time, r, same⟩⟩ := Event.entry?_eq_some entry
  · cases step with
    | begin envelope later made linked =>
      obtain ⟨rfl, -⟩ := Event.begun.inj same
      obtain ⟨fresh, -⟩ := Registry.begins h.numbered (Prod.ext made rfl)
      exact Nat.ne_of_lt (h.below earlier begun).1 (named.trans (own.symm.trans fresh))
    | _ => cases same
  · have mem : call ∈ t.calls := by
      cases step with
      | wait mem =>
        obtain ⟨rfl, -⟩ := Event.looked.inj same
        exact mem
      | finish split =>
        obtain ⟨rfl, -⟩ := Event.looked.inj same
        simp [split]
      | _ => cases same
    exact settled call mem own

section
variable (history : History depth log t)
include history

/-- A request is read from the session that its host was linked to when it was sent. -/
theorem History.addressed (read : .read session id ∈ log) :
    ∃ before after call entered, log = before ++ .begun call entered :: after ∧ call.id = id ∧
      linked? call.envelope.host before = some session := by
  obtain ⟨-, ordered, -⟩ := history.regular
  obtain ⟨call, made, here, named⟩ :=
    ordered.known _ (ordered.entered_of_read (mem_readings.2 read))
  obtain ⟨entered, mem⟩ := mem_begun.1 made
  obtain ⟨before, after, split⟩ := List.append_of_mem mem
  obtain ⟨t₀, t₁, past, step⟩ := history.at split
  refine ⟨before, after, call, entered, split, named, ?_⟩
  cases step with
  | begin envelope later made linked =>
    exact (past.link?_eq _).symm.trans (linked.trans (congrArg some here))

/-- Whoever answers a request is told whether its sender still waits. -/
theorem History.told {heard : Bool} {time : Nat}
    (split : log = before ++ .responded id answer heard time :: after) :
    heard = true ↔ ¬ Overslept id before := by
  obtain ⟨t₀, t₁, past, step⟩ := history.at split
  obtain ⟨-, -, fits, -⟩ := past.regular
  cases step with
  | respond hands answer later =>
    rcases (fits id).lies (.inl (by simp [hands])) with queued | ⟨gone, late⟩
    · obtain ⟨x, found, waits⟩ := progress?_eq_some.1 queued
      rw [Registry.respond_queued found waits]
      exact iff_of_true rfl ((fits id).awake (by rw [queued]; exact nofun))
    · rw [Registry.respond_missing (progress?_eq_none.1 gone)]
      exact iff_of_false nofun fun awake => awake late

theorem History.hearing_iff : (id, answer) ∈ hearings log ↔ Awaited id answer log := by
  rw [mem_hearings]
  constructor
  · rintro ⟨time, mem⟩
    obtain ⟨before, after, split⟩ := List.append_of_mem mem
    exact ⟨before, after, true, time, split, (history.told split).1 rfl⟩
  · rintro ⟨before, after, heard, time, split, awake⟩
    have told := (history.told split).2 awake
    subst told
    exact ⟨time, by simp [split]⟩

/-- A send ends with an answer just if its own request was answered with it while its sender
waited. -/
theorem History.returned {result : Except Failure Answer} (ended : (id, result) ∈ results log)
    (answer : Answer) : result = .ok answer ↔ Awaited id answer log := by
  rw [← history.hearing_iff]
  exact (history.regular.fits id).ended result ended answer

/-- No request is answered twice. -/
theorem History.heard_once {heard heard' : Bool} {answer' : Answer} {time time' : Nat}
    (mem : .responded id answer heard time ∈ log)
    (mem' : .responded id answer' heard' time' ∈ log) :
    heard = heard' := by
  have once : (partings log).Nodup := (List.nodup_append.1 history.regular.ordered.nodup_hands).2.1
  by_contra ne
  have apart := List.pairwise_filterMap.1 once
  have : Std.Symm fun e e' : Event => ∀ b ∈ e.parting?, ∀ b' ∈ e'.parting?, b ≠ b' :=
    ⟨fun _ _ h b mem b' mem' same => h b' mem' b mem same.symm⟩
  refine apart.forall mem mem' (fun same => ne ?_) id rfl id rfl rfl
  cases same
  rfl

/-- Whoever answers is told that its answer is heard just if the send ends with it. -/
theorem History.heard_iff {heard : Bool} {time : Nat} {result : Except Failure Answer}
    (responded : .responded id answer heard time ∈ log) (ended : (id, result) ∈ results log) :
    heard = true ↔ result = .ok answer := by
  have same := (history.regular.fits id).ended result ended answer
  rw [same, mem_hearings]
  constructor
  · rintro rfl
    exact ⟨time, responded⟩
  · rintro ⟨time', mem⟩
    exact history.heard_once responded mem

/-- A send that has been answered while its sender waited ends with the answer as soon as it
looks. -/
theorem History.awaits (mem : call ∈ t.calls) (awaited : Awaited call.id answer log) (now : Nat) :
    (call.sending.poll t.registry now).1 = .ended (.ok answer) := by
  have heard := history.hearing_iff.2 awaited
  obtain ⟨tracked, -, fits, -⟩ := history.regular
  rcases (fits call.id).heard answer heard with settled | ended
  · obtain ⟨x, found, settled⟩ := progress?_eq_some.1 settled
    exact Sending.poll_answered found settled
  · exact absurd rfl ((tracked.ended _ _ ended).2 call mem)

/-- A request enters a queue before its send is over, or never. -/
theorem History.entered_before {time : Nat} {entered : Bool} {result : Except Failure Answer}
    (split : log = before ++ .looked call time entered (some result) :: after)
    (mem : (session, call.id) ∈ entries log) :
    (session, call.id) ∈ entries (before ++ [.looked call time entered (some result)]) := by
  by_contra outside
  have whole : log = (before ++ [.looked call time entered (some result)]) ++ after := by
    simp [split]
  have mem : (session, call.id) ∈ entries after := by
    have mem := mem
    rw [whole, entries, List.filterMap_append] at mem
    exact (List.mem_append.1 mem).resolve_left outside
  obtain ⟨e, mem, entry⟩ := List.mem_filterMap.1 mem
  obtain ⟨between, rest, later⟩ := List.append_of_mem mem
  have split : log = (before ++ [.looked call time entered (some result)] ++ between) ++
    e :: rest := by
    simp [whole, later]
  obtain ⟨t₀, t₁, past, step⟩ := history.at split
  refine past.regular.tracked.entering step entry result
    (mem_results.2 ⟨call, time, entered, rfl, by simp⟩)

/-- A send that is over before its request has entered the queue is never read. -/
theorem History.unread {time : Nat} {entered : Bool} {result : Except Failure Answer}
    (split : log = before ++ .looked call time entered (some result) :: after)
    (outside : call.id ∉ (entries (before ++ [.looked call time entered (some result)])).map
      (·.2)) :
    .read session call.id ∉ log := by
  intro read
  have entry := history.regular.ordered.entered_of_read (mem_readings.2 read)
  exact outside (List.mem_map_of_mem (history.entered_before split entry))

/-- An answer before the deadline is heard. -/
theorem History.early {heard : Bool} {time : Nat}
    (split : log = before ++ .responded id answer heard time :: after)
    (made : call ∈ begun log) (named : call.id = id) (early : time < call.deadline) :
    heard = true := by
  refine (history.told split).2 ?_
  rintro ⟨other, time', entered', result, looked, same, late⟩
  obtain ⟨t₀, t₁, past, step⟩ := history.at split
  obtain ⟨begins, passed⟩ := past.regular.tracked.looks other time' entered' result looked
  have earlier : other ∈ begun log := by
    rw [split, begun, List.filterMap_append]
    exact List.mem_append_left _ begins
  have own : other = call :=
    List.inj_on_of_nodup_map history.regular.tracked.distinct earlier made (same.trans named.symm)
  subst own
  cases step with
  | respond hands answer later => omega

/-- Nobody hears an answer when its own send is over. -/
theorem History.unheard {heard : Bool} {time : Nat} {result : Except Failure Answer}
    (split : log = before ++ .responded id answer heard time :: after)
    (settled : (id, result) ∈ results before) :
    heard = false := by
  obtain ⟨t₀, t₁, past, step⟩ := history.at split
  cases step with
  | respond hands answer later =>
    rw [Registry.respond_missing (progress?_eq_none.1 (past.regular.tracked.settled settled))]

/-- An answer that is heard is not later than a prompt sender may look. -/
theorem History.late {heard : Bool} {time slack : Nat} (prompt : Prompt slack log)
    (split : log = before ++ .responded id answer heard time :: after)
    (made : call ∈ begun before) (named : call.id = id) (hears : heard = true) :
    time ≤ call.deadline + slack := by
  refine prompt.at split rfl call made fun result settled => ?_
  rw [history.unheard split (named ▸ settled)] at hears
  cases hears

end

/-- What senders and hosts can rely on. -/
structure Correlated (depth : Nat) (log : List Event) (t : Traffic) : Prop where
  once : ((readings log).map (·.2)).Nodup
  addressed : ∀ session id, .read session id ∈ log →
    ∃ before after call entered, log = before ++ .begun call entered :: after ∧ call.id = id ∧
      linked? call.envelope.host before = some session
  inOrder : ∀ session, ofSession session (readings log) <+: ofSession session (entries log)
  filled : ∀ session, t.registry.isOpen session = true → ofSession session (entries log) =
    ofSession session (readings log) ++ (t.registry.queue session).map (·.id)
  returned : ∀ id result, (id, result) ∈ results log → ∀ answer, result = .ok answer ↔
    Awaited id answer log
  awaited : ∀ call ∈ t.calls, ∀ answer, Awaited call.id answer log →
    ∀ now, (call.sending.poll t.registry now).1 = .ended (.ok answer)
  early : ∀ before id answer heard time after, log = before ++
    .responded id answer heard time :: after →
    ∀ call ∈ begun before, call.id = id → time < call.deadline → heard = true
  late : ∀ slack, Prompt slack log →
    ∀ before id answer heard time after, log = before ++
    .responded id answer heard time :: after →
      ∀ call ∈ begun before, call.id = id → heard = true → time ≤ call.deadline + slack
  told : ∀ before id answer heard time after, log = before ++
    .responded id answer heard time :: after → (heard = true ↔ ¬ Overslept id before)
  heard : ∀ id answer heard time result, .responded id answer heard time ∈ log →
    (id, result) ∈ results log → (heard = true ↔ result = .ok answer)
  bounded : ∀ session, (t.registry.queue session).length ≤ max depth 1
  unread : ∀ before call time entered result after,
    log = before ++ .looked call time entered (some result) :: after →
    call.id ∉ (entries (before ++ [.looked call time entered (some result)])).map (·.2) →
    ∀ session, .read session call.id ∉ log

theorem answers_find_their_senders (history : History depth log t) : Correlated depth log t where
  once := history.regular.ordered.nodup_readings
  addressed := fun _ _ read => history.addressed read
  inOrder := fun session => (List.prefix_append _ _).trans (history.regular.ordered.order session)
  filled := history.regular.ordered.whole
  returned := fun _ _ ended => history.returned ended
  awaited := fun _ mem _ awaited => history.awaits mem awaited
  early := fun before _ _ _ _ _ split call made => by
    refine history.early split ?_
    rw [split, begun, List.filterMap_append]
    exact List.mem_append_left _ made
  late := fun _ prompt _ _ _ _ _ _ split _ made named => history.late prompt split made named
  told := fun _ _ _ _ _ _ split => history.told split
  heard := fun _ _ _ _ _ responded ended => history.heard_iff responded ended
  bounded := fun session => by
    have room := history.regular.bounded session
    rw [history.regular.places] at room
    exact Nat.le_trans (Nat.le_add_right _ _) room
  unread := fun _ _ _ _ _ _ split outside _ => history.unread split outside

theorem prompt_of_times (bound : Nat) (times : log.all (fun e => e.time?.all (· ≤ bound)) = true)
    (deadlines : (begun log).all (bound ≤ ·.deadline) = true) : Prompt 0 log := by
  induction log using List.reverseRecOn with
  | nil => exact .start
  | append_singleton log e ih =>
    rw [List.all_append, Bool.and_eq_true, List.all_cons, Bool.and_eq_true] at times
    rw [begun_append, List.all_append, Bool.and_eq_true] at deadlines
    refine (ih times.1 deadlines.1).step fun time timed call made _ => ?_
    have early : time ≤ bound := by simpa [timed] using times.2.1
    have late : bound ≤ call.deadline := by simpa using List.all_eq_true.1 deadlines.1 call made
    exact Nat.le_trans early late

/-- A command to a host that has one second to answer. -/
def question : Envelope := .ofBody ⟨5⟩ .checkState ⟨"i-1"⟩ (.ofSecs 1)

def poweredOn : Answer := .ofReply .checkState .on

/-- The second send waits for the only place until the first request has been read. -/
theorem one_place_serves_two :
    ∃ log t, History 0 log t ∧ Prompt 0 log ∧ entries log = [(0, 1), (0, 2)] ∧
      readings log = [(0, 1)] ∧ results log = [(1, .ok poweredOn)] ∧
      t.calls.map (·.id) = [2] ∧ Correlated 0 log t := by
  have connected := (@History.start 0).step (.connect ⟨5⟩)
  have first := connected.step (@Step.begin _ question 1 0 0 (Nat.le_refl _) rfl rfl)
  have second := first.step (@Step.begin _ question 2 0 0 (Nat.le_refl _) rfl rfl)
  have read := second.step (@Step.read _ 0 ⟨1, question⟩ rfl)
  have admitted := read.step (@Step.wait _ ⟨2, question, 0, 1000⟩ (by decide) 5 (by decide) rfl)
  have answered := admitted.step (@Step.respond _ [] [] 1 rfl poweredOn 9 (by decide))
  have ended := answered.step
    (@Step.finish _ [] [⟨2, question, 0, 1000⟩] ⟨1, question, 0, 1000⟩ rfl 9 (by decide)
      (.ok poweredOn) rfl)
  exact ⟨_, _, ended, prompt_of_times 1000 (by decide) (by decide), by decide, by decide, by rfl,
    by decide, answers_find_their_senders ended⟩

def asked : Call := ⟨1, question, 0, 1000⟩

/-- The sender looks at the deadline, and then the host answers. -/
theorem answered_at_the_deadline :
    ∃ t, History 0 [.connected ⟨5⟩ 0, .begun asked true, .read 0 1,
      .looked asked 1000 false (some (.error (Registry.timeout question))),
      .responded 1 poweredOn false 1000] t := by
  have connected := (@History.start 0).step (.connect ⟨5⟩)
  have sent := connected.step (@Step.begin _ question 1 0 0 (Nat.le_refl _) rfl rfl)
  have read := sent.step (@Step.read _ 0 ⟨1, question⟩ rfl)
  have lost := read.step
    (@Step.finish _ [] [] asked rfl 1000 (by decide) (.error (Registry.timeout question)) rfl)
  exact ⟨_, lost.step (@Step.respond _ [] [] 1 rfl poweredOn 1000 (by decide))⟩

/-- The host answers after the deadline, and then the sender looks. -/
theorem answered_after_the_deadline :
    ∃ t, History 0 [.connected ⟨5⟩ 0, .begun asked true, .read 0 1,
      .responded 1 poweredOn true 1500, .looked asked 1500 false (some (.ok poweredOn))] t := by
  have connected := (@History.start 0).step (.connect ⟨5⟩)
  have sent := connected.step (@Step.begin _ question 1 0 0 (Nat.le_refl _) rfl rfl)
  have read := sent.step (@Step.read _ 0 ⟨1, question⟩ rfl)
  have answered := read.step (@Step.respond _ [] [] 1 rfl poweredOn 1500 (by decide))
  exact ⟨_, answered.step (@Step.finish _ [] [] asked rfl 1500 (by decide) (.ok poweredOn) rfl)⟩

/-- A sender that looks at the deadline gives up, though the host answers no later, even if all
senders are prompt. One that does not look until the host has answered gets an answer that is
late. -/
theorem deadline_does_not_decide :
    (∃ log t, History 0 log t ∧ Prompt 0 log ∧
      (1, .error (Registry.timeout question)) ∈ results log ∧ ByDeadline 1 poweredOn log) ∧
    ∃ log t, History 0 log t ∧ (1, .ok poweredOn) ∈ results log ∧
      ¬ ByDeadline 1 poweredOn log := by
  constructor
  · obtain ⟨t, history⟩ := answered_at_the_deadline
    refine ⟨_, t, history, prompt_of_times 1000 (by decide) (by decide),
      List.mem_singleton.2 rfl, ?_⟩
    exact ⟨asked, false, 1000, List.mem_singleton.2 rfl, rfl, by simp, Nat.le_refl _⟩
  · obtain ⟨t, history⟩ := answered_after_the_deadline
    refine ⟨_, t, history, List.mem_singleton.2 rfl, ?_⟩
    rintro ⟨call, heard, time, made, -, responded, early⟩
    cases List.mem_singleton.1 made
    obtain ⟨-, rfl⟩ : heard = true ∧ time = 1500 := by simpa using responded
    exact absurd early (by decide)

end ControlPlane.Agent.Traffic
