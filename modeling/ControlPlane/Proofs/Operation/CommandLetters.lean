import ControlPlane.Proofs.Migration.CrossCluster

/-!
# Commands, questions and what came back

Commands and questions in their order, each with what came back. From them it can be told whether a
migration has carried a machine to its destination, and whether one was lost and nobody has said
since where the machine is.
-/

namespace ControlPlane.Concurrent
open Work Control Operation Procedure Migration Agent

def Exchange.letters : Exchange → List Sent
  | ⟨.send e, answer, _⟩ => [(e, answer)]
  | ⟨.sendBoth e e', answers, _⟩ => [(e, answers.1), (e', answers.2)]
  | _ => []

/-- All that was sent, questions included. -/
def letters (past : List Exchange) : List Sent := past.flatMap Exchange.letters

/-- A machine was sent to a destination, and the source has said that it is gone, or the destination
that it has come. -/
def Carried (token : String) (destination : HostId) (l : List Sent) : Prop :=
  ∃ before source wait answer after,
    l = before ++ (.ofBody source .migrate ⟨token, destination⟩ wait, answer) :: after ∧
      (Acknowledged answer ∨ ∃ wait told, (probe destination token wait, told) ∈ after ∧
        powerOf destination told = .ok .on)

/-- A host was asked for the power of a machine, and has said that it runs there. -/
def Confirms (c : Sent) : Prop :=
  c.1.kind = Enumeration.name Kind.checkState ∧ powerOf c.1.host c.2 = .ok .on

/-- A migration was sent, its answer was lost, and no host has said since that it has the
machine. -/
def Astray (c : Sent) (after : List Sent) : Prop :=
  c.1.kind = Enumeration.name Kind.migrate ∧
    (∃ failure, c.2 = .error failure ∧ failure.kind.Ambiguous) ∧
    ∀ d ∈ after, ¬ Confirms d

def Unplaced : List Sent → Prop
  | [] => False
  | c :: l => Astray c l ∨ Unplaced l

instance : DecidablePred Confirms := fun _ => inferInstanceAs (Decidable (_ ∧ _))

instance : (answer : Except Failure Answer) →
    Decidable (∃ failure, answer = .error failure ∧ failure.kind.Ambiguous)
  | .ok _ => isFalse fun ⟨_, no, _⟩ => nomatch no
  | .error failure => decidable_of_iff failure.kind.Ambiguous
      ⟨fun lost => ⟨failure, rfl, lost⟩,
        fun ⟨_, same, lost⟩ => Except.error.inj same ▸ lost⟩

instance (c : Sent) (after : List Sent) : Decidable (Astray c after) :=
  inferInstanceAs (Decidable (_ ∧ _ ∧ _))

instance decidableUnplaced : (l : List Sent) → Decidable (Unplaced l)
  | [] => .isFalse id
  | c :: l =>
    have := decidableUnplaced l
    inferInstanceAs (Decidable (Astray c l ∨ Unplaced l))

variable {v : VmId} {job : Nat} {s : Shared} {past : List Exchange} {item : Item} {view : View}
  {ctx : Context} {vm : Vm} {p : Plan} {e : Exchange} {c : Sent} {l m : List Sent} {token : String}
  {host : HostId}

theorem letters_append : letters (past ++ [e]) = letters past ++ e.letters := by
  rw [letters, List.flatMap_append, List.flatMap_singleton]
  rfl

theorem Exchange.letters_of_silent (silent : ¬ e.request.Sends) : e.letters = [] := by
  obtain ⟨r, reply, before⟩ := e
  cases r with
  | send e => exact absurd trivial silent
  | sendBoth e e' => exact absurd trivial silent
  | _ => rfl

theorem letters_of_unsent (unsent : Unsent past) : letters past = [] :=
  List.flatMap_eq_nil_iff.2 fun e mem => Exchange.letters_of_silent (unsent e mem)

theorem commands_eq : commands past = (letters past).filter (·.1.Commands) := by
  rw [commands, letters, List.filter_flatMap]
  refine List.flatMap_congr fun e _ => ?_
  obtain ⟨r, reply, before⟩ := e
  cases r <;> rfl

theorem spared_letters {T : List Sent → Prop} : Spared fun past => T (letters past) := by
  intro past e silent h
  rw [letters_append, Exchange.letters_of_silent silent, List.append_nil]
  exact h

theorem Carried.append (h : Carried token host l) : Carried token host (l ++ m) := by
  obtain ⟨before, source, wait, answer, after, rfl, how⟩ := h
  refine ⟨before, source, wait, answer, after ++ m, by simp, how.imp_right fun said => ?_⟩
  obtain ⟨wait, told, mem, on⟩ := said
  exact ⟨wait, told, List.mem_append_left m mem, on⟩

theorem Carried.prepend (h : Carried token host m) : Carried token host (l ++ m) := by
  obtain ⟨before, source, wait, answer, after, rfl, how⟩ := h
  exact ⟨l ++ before, source, wait, answer, after, by simp, how⟩

theorem Astray.narrow (h : Astray c (l ++ m)) : Astray c l :=
  ⟨h.1, h.2.1, fun d mem => h.2.2 d (List.mem_append_left m mem)⟩

theorem Unplaced.of_append (h : Unplaced (l ++ m)) : Unplaced l ∨ Unplaced m := by
  induction l with
  | nil => exact .inr h
  | cons c l ih =>
    rcases h with astray | later
    · exact .inl (.inl astray.narrow)
    · exact (ih later).imp_left .inr

theorem not_astray_of_other {k : Kind} {body : k.Body} {wait : Span}
    {answer : Except Failure Answer} (other : k ≠ .migrate) :
    ¬ Astray (.ofBody host k body wait, answer) l :=
  fun astray => other (Kind.name_injective astray.1)

theorem not_unplaced_of_other {k : Kind} {body : k.Body} {wait : Span}
    {answer : Except Failure Answer} (other : k ≠ .migrate) :
    ¬ Unplaced [(.ofBody host k body wait, answer)] :=
  fun lost => lost.elim (not_astray_of_other other) id

/-- How a migration is found to have ended, by what was sent for it. -/
inductive Traced (p : Plan) (token : String) : List Sent → Landing → Prop
  | acknowledged {wait : Span} {answer : Except Failure Answer} (done : Acknowledged answer) :
      Traced p token [(.ofBody p.source .migrate ⟨token, p.destination⟩ wait, answer)] .moved
  | refused {wait : Span} {answer : Except Failure Answer} {failure : Failure}
      (definite : ∀ lost, answer = .error lost → ¬ lost.kind.Ambiguous) :
      Traced p token [(.ofBody p.source .migrate ⟨token, p.destination⟩ wait, answer)]
        (.notMoved failure)
  | arrived {wait wait' : Span} {answer a : Except Failure Answer}
      (on : powerOf p.destination a = .ok .on) :
      Traced p token [(.ofBody p.source .migrate ⟨token, p.destination⟩ wait, answer),
        (probe p.destination token wait', a)] .moved
  | stayed {wait wait' wait'' : Span} {answer a b : Except Failure Answer} {failure : Failure}
      (on : powerOf p.source b = .ok .on) :
      Traced p token [(.ofBody p.source .migrate ⟨token, p.destination⟩ wait, answer),
        (probe p.destination token wait', a), (probe p.source token wait'', b)] (.notMoved failure)
  | unknown {m : List Sent} {failure : Failure} : Traced p token m (.unknown failure)

theorem Traced.carried (h : Traced p token m .moved) : Carried token p.destination m := by
  cases h with
  | acknowledged done => exact ⟨[], _, _, _, [], rfl, .inl done⟩
  | arrived on => exact ⟨[], _, _, _, _, rfl, .inr ⟨_, _, List.mem_singleton_self _, on⟩⟩

theorem Traced.placed {landing : Landing} (h : Traced p token m landing)
    (known : ∀ failure, landing ≠ .unknown failure) : ¬ Unplaced m := by
  have asks : ∀ {host wait a l}, ¬ Astray (probe host token wait, a) l :=
    not_astray_of_other (by decide)
  cases h with
  | acknowledged done =>
    obtain ⟨a, rfl, -⟩ := done
    rintro (⟨-, ⟨failure, ⟨⟩, -⟩, -⟩ | no)
    exact no
  | refused definite =>
    rintro (⟨-, ⟨failure, lost, ambiguous⟩, -⟩ | no)
    · exact definite failure lost ambiguous
    · exact no
  | arrived on =>
    rintro (⟨-, -, denied⟩ | astray | no)
    · exact denied _ (List.mem_singleton_self _) ⟨rfl, on⟩
    · exact asks astray
    · exact no
  | stayed on =>
    rintro (⟨-, -, denied⟩ | astray | astray | no)
    · exact denied _ (List.mem_cons_of_mem _ (List.mem_singleton_self _)) ⟨rfl, on⟩
    · exact asks astray
    · exact asks astray
    · exact no
  | unknown => exact absurd rfl (known _)

abbrev Writes (v : VmId) (item : Item) (view : View) (l : List Sent) : Assertion :=
  Stands v item view fun past => letters past = l

theorem alone_send {e : Envelope} (h : Writes v item view l past s) :
    Safe (alone v job)
      (fun (answer : Except Failure Answer) => Writes v item view (l ++ [(e, answer)]))
      (Program.call (I := surroundings) (.send e)) past s := by
  refine Safe.call stable_lies (fun _ => rfl) h fun s h _ => ⟨trivial, ?_⟩
  rintro answer _ rfl
  refine ⟨trivial, h.1.append (by rintro y ⟨⟩), ?_⟩
  exact letters_append.trans (congrArg (· ++ [(e, answer)]) h.2)

theorem alone_powerState {wait : Span} (h : Writes v item view l past s) :
    Safe (alone v job) (fun power past s => ∃ a, power = powerOf host a ∧
      Writes v item view (l ++ [(probe host token wait, a)]) past s)
      (powerState host token wait) past s :=
  Safe.then (alone_send h) fun a _ _ h => ⟨a, rfl, h⟩

/-- A machine is sent away, and then it is known where it is, or it is not. -/
theorem alone_sendAway (h : Writes v item view l past s) :
    Safe (alone v job) (fun landing past s => ∃ m, Traced p vm.token m landing ∧
      Writes v item view (l ++ m) past s) (sendAway ctx vm p) past s := by
  refine Safe.then (Q := fun result past s => ∃ wait answer,
    result = Kind.migrate.interpret p.source answer ∧
    Writes v item view
      (l ++ [(.ofBody p.source .migrate ⟨vm.token, p.destination⟩ wait, answer)]) past s)
    (Safe.then (alone_send h) fun answer _ _ h => ⟨_, answer, rfl, h⟩) ?_
  rintro result past s ⟨wait, answer, rfl, h⟩
  cases read : Kind.migrate.interpret p.source answer with
  | ok reply => exact ⟨_, .acknowledged (acknowledged_of_interpret read), h⟩
  | error failure =>
    simp only
    split
    next ambiguous =>
      refine Safe.then (alone_powerState h) fun power past s h => ?_
      obtain ⟨a, rfl, h⟩ := h
      split
      next on => exact ⟨_, .arrived on, by simpa using h⟩
      next =>
        refine Safe.then (alone_powerState h) fun power past s h => ?_
        obtain ⟨b, rfl, h⟩ := h
        split
        next on => exact ⟨_, .stayed on, by simpa using h⟩
        next => exact ⟨_, .unknown, by simpa using h⟩
    next definite =>
      refine ⟨_, .refused ?_, h⟩
      rintro lost rfl
      cases read
      exact definite

end ControlPlane.Concurrent
