import ControlPlane.Proofs.Agent.Correlation

/-!
# What a later answer tells of an earlier command

A send has ended without an answer, and a later one is answered. As long as both went to one
session, the command of the first will not be read any more: it has been read before that of the
second, or never entered the queue. But a session that was replaced or cut off still delivers what
lies in its queue, so a command that went there may be read after the host has answered through its
new session.
-/

namespace ControlPlane.Agent.Traffic
variable {depth : Nat} {log before between during after : List Event} {t : Traffic} {session : Nat}
  {first second : Call} {time₁ time₂ : Nat} {entered entered₁ entered₂ : Bool}
  {answer : Answer} {failure : Failure}

/-- What was so at some point of a history is part of a history. -/
theorem History.until (history : History depth log t) {e : Event}
    (split : log = before ++ e :: after) :
    ∃ t', History depth (before ++ [e]) t' := by
  obtain ⟨t₀, t₁, past, step⟩ := history.at split
  exact ⟨t₁, past.step step⟩

theorem Regular.own (h : Regular depth log t) (entry : (session, second.id) ∈ entries log)
    (made : second ∈ begun log) : session = second.session := by
  obtain ⟨call, made', here, named⟩ := h.ordered.known _ entry
  cases List.inj_on_of_nodup_map h.tracked.distinct made' made named
  exact here.symm

/-- A request with an answer has been read from the session that it was sent to. -/
theorem Regular.read_of_result (h : Regular depth log t)
    (mem : (second.id, .ok answer) ∈ results log) (made : second ∈ begun log) :
    (second.session, second.id) ∈ readings log := by
  have heard := ((h.fits second.id).ended _ mem answer).1 rfl
  obtain ⟨session, read⟩ := h.ordered.entered_of_parting (.inr (parted_of_hearing heard))
  exact h.own (h.ordered.entered_of_read read) made ▸ read

/-- What has entered a queue before has been read before. -/
theorem Regular.read_in_order (h : Regular depth (before ++ after) t) {id id' : Nat}
    (read : (session, id) ∈ readings (before ++ after)) (new : id ∉ (entries before).map (·.2))
    (entry : (session, id') ∈ entries before) :
    (session, id') ∈ readings (before ++ after) := by
  have here : ∀ {x : Nat} {xs : List (Nat × Nat)}, x ∈ ofSession session xs ↔
    (session, x) ∈ xs := by
    intro x xs
    simp [ofSession]
  have all : ofSession session (entries (before ++ after)) =
      ofSession session (entries before) ++ ofSession session (entries after) := by
    rw [entries, List.filterMap_append, ofSession_append]
    rfl
  have readings' := (List.prefix_append _ _).trans (h.ordered.order session)
  rcases List.prefix_or_prefix_of_prefix readings'
    (all ▸ List.prefix_append _ _) with short | long
  · have earlier := here.1 (short.subset (here.2 read))
    exact absurd (List.mem_map_of_mem earlier) new
  · exact here.1 (long.subset (here.2 entry))

theorem Regular.read_once (h : Regular depth (before ++ after) t) {id : Nat}
    (read : (session, id) ∈ readings before) : .read session id ∉ after := by
  intro again
  have once := h.ordered.nodup_readings
  rw [readings, List.filterMap_append, List.map_append, List.nodup_append] at once
  exact once.2.2 id (List.mem_map_of_mem read) id (List.mem_map_of_mem (mem_readings.2 again)) rfl

/-- A command whose send has ended without an answer is read after the answer to a later command
only from the session that it was sent to, and only if the later command has found another
session. -/
theorem straggler_comes_from_a_former_session
    (history : History depth
      (before ++ .looked first time₁ entered₁ (some (.error failure)) :: (between ++
        .begun second entered ::
          (during ++ .looked second time₂ entered₂ (some (.ok answer)) :: after))) t)
    (read : .read session first.id ∈ after) :
    session = first.session ∧ ∃ t₀,
      History depth (before ++ .looked first time₁ entered₁ (some (.error failure)) :: between)
        t₀ ∧ t₀.registry.link? second.envelope.host = some second.session ∧
        second.session ≠ session := by
  let past := before ++ .looked first time₁ entered₁ (some (.error failure)) :: between
  let course := .begun second entered ::
    (during ++ [.looked second time₂ entered₂ (some (.ok answer))])
  -- The history up to the later send, up to its answer, and whole.
  let told := Event.looked second time₂ entered₂ (some (.ok answer))
  have untilSend : before ++ .looked first time₁ entered₁ (some (.error failure)) :: (between ++
      .begun second entered :: (during ++ told :: after)) =
        past ++ .begun second entered :: (during ++ told :: after) := by simp [past]
  have untilAnswer : before ++ .looked first time₁ entered₁
    (some (.error failure)) :: (between ++
      .begun second entered :: (during ++ told :: after)) =
        (past ++ .begun second entered :: during) ++ told :: after := by simp [past]
  obtain ⟨t₀, t₁, atSend, step⟩ := history.at untilSend
  obtain ⟨t₂, atAnswer⟩ := history.until untilAnswer
  have answered : Regular depth (past ++ course) t₂ := by
    simpa [past, course, told] using atAnswer.regular
  have regular : Regular depth ((past ++ course) ++ after) t := by
    simpa [past, course] using history.regular
  have looked : .looked first time₁ entered₁ (some (.error failure)) ∈
    (past ++ course) ++ after := by
    simp [past]
  have made : .begun second entered ∈ past ++ course := by simp [course]
  have heard : .looked second time₂ entered₂ (some (.ok answer)) ∈ past ++ course := by
    simp [course]
  have entry := regular.ordered.entered_of_read (mem_readings.2 (List.mem_append_right _ read))
  have here : session = first.session :=
    regular.own entry (regular.tracked.looks first _ _ _ looked).1
  obtain ⟨link, new⟩ : t₀.registry.link? second.envelope.host = some second.session ∧
      second.id = t₀.registry.fresh := by
    cases step with
    | begin envelope later begun linked =>
      exact ⟨linked, (Registry.begins atSend.regular.tracked.numbered (Prod.ext begun rfl)).1⟩
  refine ⟨here, t₀, atSend, link, fun same => ?_⟩
  subst same
  have secondRead : (second.session, second.id) ∈ readings (past ++ course) :=
    answered.read_of_result (mem_results.2 ⟨second, time₂, entered₂, rfl, heard⟩)
      (mem_begun.2 ⟨_, made⟩)
  have firstEntered : (second.session, first.id) ∈ entries past := by
    have early := history.entered_before rfl (by simpa [past, course] using entry)
    rw [show past = (before ++ [.looked first time₁ entered₁ (some (.error failure))]) ++
      between by simp [past], entries, List.filterMap_append]
    exact List.mem_append_left _ early
  have firstRead := answered.read_in_order secondRead
    (new ▸ atSend.regular.ordered.new atSend.regular.tracked) firstEntered
  exact regular.read_once firstRead read

/-- A send to a session that is replaced before its request is read, and one to the next session. -/
def overdue : Call := ⟨1, question, 0, 1000⟩

def renewed : Call := ⟨3, question, 2, 2000⟩

theorem reconnection : ∃ t, History 4 ([.connected ⟨5⟩ 0, .begun overdue true] ++
    .looked overdue 1000 false (some (.error (Registry.timeout question))) ::
      ([.connected ⟨5⟩ 2] ++
        .begun renewed true :: ([.read 2 3, .responded 3 poweredOn true 1000] ++
          .looked renewed 1000 false (some (.ok poweredOn)) :: [.read 0 1]))) t := by
  have connected := (@History.start 4).step (.connect ⟨5⟩)
  have sent := connected.step (@Step.begin _ question 1 0 0 (Nat.le_refl _) rfl rfl)
  have lost := sent.step
    (@Step.finish _ [] [] overdue rfl 1000 (by decide) (.error (Registry.timeout question)) rfl)
  have again := lost.step (.connect ⟨5⟩)
  have asked := again.step (@Step.begin _ question 3 2 1000 (Nat.le_refl _) rfl rfl)
  have read := asked.step (@Step.read _ 2 ⟨3, question⟩ rfl)
  have answered := read.step (@Step.respond _ [] [] 3 rfl poweredOn 1000 (Nat.le_refl _))
  have ended :=
    answered.step (@Step.finish _ [] [] renewed rfl 1000 (Nat.le_refl _) (.ok poweredOn) rfl)
  exact ⟨_, ended.step (@Step.read _ 0 ⟨1, question⟩ rfl)⟩

/-- The former session of a host is read on after the host has answered through its new one. -/
theorem replaced_session_is_read_on : ∃ log t, History 4 log t ∧ .read 0 overdue.id ∈ log ∧
    0 = overdue.session ∧ ∃ t₀, History 4 ([.connected ⟨5⟩ 0, .begun overdue true] ++
      .looked overdue 1000 false (some (.error (Registry.timeout question))) ::
        [.connected ⟨5⟩ 2]) t₀ ∧
        t₀.registry.link? question.host = some renewed.session ∧ renewed.session ≠ 0 := by
  obtain ⟨t, history⟩ := reconnection
  refine ⟨_, t, history, by simp [overdue], ?_⟩
  exact straggler_comes_from_a_former_session history (List.mem_singleton.2 rfl)

end ControlPlane.Agent.Traffic
