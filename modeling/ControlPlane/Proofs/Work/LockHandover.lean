import ControlPlane.Proofs.Work.LockExclusion

/-!
# Locks are handed on

A lock that somebody wants is in somebody's hands: whoever gives it back hands it to the next in
line. And what others do with their locks leaves the claims of an owner alone.
-/

namespace ControlPlane.Work.Locks
variable {l : Locks} {owner other lock : Nat} {name : LockName} {due : List Nat}
  {picks : Claim → Bool} {how : Release}

/-- The locks that an owner holds or waits for. -/
def wants (l : Locks) (owner : Nat) : List LockName :=
  (l.claims.filter (·.owner = owner)).map (·.name)

/-- All locks that are wanted are in somebody's hands, but for some that are yet to be handed
over. -/
def Owed (l : Locks) (due : List Nat) : Prop :=
  ∀ c ∈ l.claims, c.lock ∈ due ∨ ∃ d ∈ l.claims, d.lock = c.lock ∧ d.granted = true

structure Served (l : Locks) : Prop extends l.Numbered where
  granted : l.Owed []

theorem served_empty : Served {} := ⟨numbered_empty, by simp [Owed]⟩

theorem granted_grantOldest {claims : List Claim} (wanted : ∃ c ∈ claims, c.lock = lock) :
    ∃ d ∈ grantOldest lock claims, d.lock = lock ∧ d.granted = true := by
  induction claims with
  | nil => simp at wanted
  | cons c claims ih =>
    simp only [grantOldest]
    split
    next here => exact ⟨_, List.mem_cons_self, here, rfl⟩
    next there =>
      obtain ⟨d, mem, here⟩ := wanted
      rcases List.mem_cons.1 mem with rfl | mem
      · exact absurd here there
      · obtain ⟨e, mem, found⟩ := ih ⟨d, mem, here⟩
        exact ⟨e, List.mem_cons_of_mem _ mem, found⟩

theorem Owed.handOver (h : l.Owed (lock :: due)) : (l.handOver lock).Owed due := by
  unfold Locks.handOver
  split
  next held =>
    obtain ⟨e, mem, here⟩ := List.any_eq_true.1 held
    simp only [Bool.and_eq_true, decide_eq_true_eq] at here
    intro c mem'
    rcases h c mem' with owed | served
    · rcases List.mem_cons.1 owed with same | owed
      · exact .inr ⟨e, mem, here.1.trans same.symm, here.2⟩
      · exact .inl owed
    · exact .inr served
  next free =>
    intro c mem
    obtain ⟨d, mem, -, same, -⟩ := mem_grantOldest mem
    rw [same]
    rcases h d mem with owed | ⟨e, mem, served⟩
    · rcases List.mem_cons.1 owed with here | owed
      · rw [here]
        exact .inr (granted_grantOldest ⟨d, mem, here⟩)
      · exact .inl owed
    · exact .inr ⟨e, mem_grantOldest_of_granted mem served.2, served⟩

theorem entries_handOver :
    (l.handOver lock).entries = l.entries ∧ (l.handOver lock).fresh = l.fresh := by
  unfold handOver
  split <;> exact ⟨rfl, rfl⟩

theorem Owed.dropWhere (h : l.Owed []) : (l.dropWhere picks).Owed [] := by
  have rest : Owed { l with claims := l.claims.filter (!picks ·) }
      ((l.claims.filter picks).map (·.lock)) := by
    intro c mem
    obtain ⟨d, mem, same, granted⟩ :=
    (h c (List.mem_filter.1 mem).1).resolve_left List.not_mem_nil
    cases picked : picks d with
    | true => exact .inl (List.mem_map.2 ⟨d, List.mem_filter.2 ⟨mem, picked⟩, same⟩)
    | false => exact .inr ⟨d, List.mem_filter.2 ⟨mem, by simp [picked]⟩, same, granted⟩
  -- The locks that go are handed over one after the other.
  unfold Locks.dropWhere
  generalize l.claims.filter picks = dropped at rest ⊢
  generalize { l with claims := l.claims.filter (!picks ·) } = l' at rest ⊢
  induction dropped generalizing l' with
  | nil => exact rest
  | cons c dropped ih => exact ih _ (Owed.handOver rest)

namespace Served

theorem dropWhere (h : l.Served) : (l.dropWhere picks).Served := by
  have frame : (l.dropWhere picks).entries = l.entries ∧ (l.dropWhere picks).fresh = l.fresh := by
    refine dropWhere_induction (P := fun l' => l'.entries = l.entries ∧ l'.fresh = l.fresh)
      ⟨rfl, rfl⟩ ?_
    exact fun l' lock h => ⟨entries_handOver.1.trans h.1, entries_handOver.2.trans h.2⟩
  refine ⟨⟨?_, ?_⟩, h.granted.dropWhere⟩
  · rw [frame.1, frame.2]
    exact h.below
  · rw [frame.1]
    exact h.apart

theorem claim (h : l.Served) (owner : Nat) (name : LockName) : (l.claim owner name).Served := by
  have owed : (l.enter owner name).Owed [(l.lookup name).1] := by
    intro c mem
    simp only [enter, claims_lookup] at mem ⊢
    rcases List.mem_append.1 mem with mem | mem
    · obtain ⟨d, mem, served⟩ := (h.granted c mem).resolve_left List.not_mem_nil
      exact .inr ⟨d, List.mem_append_left _ mem, served⟩
    · rw [List.mem_singleton.1 mem]
      exact .inl List.mem_cons_self
  have numbered := h.toNumbered.lookup name
  unfold Locks.claim
  refine ⟨⟨?_, ?_⟩, owed.handOver⟩
  · rw [entries_handOver.1, entries_handOver.2]
    exact numbered.below
  · rw [entries_handOver.1]
    exact numbered.apart

theorem release (h : l.Served) (name : LockName) (how : Release) : (l.release name how).Served := by
  cases how with
  | plain => exact h.dropWhere
  | tidy =>
    have kept : (l.handBack name).Served := h.dropWhere
    refine ⟨kept.toNumbered.forget name, ?_⟩
    simp only [Locks.release, Locks.forget]
    split
    · exact kept.granted
    · split <;> exact kept.granted

theorem held (h : l.Served) (sound : l.Sound) (wanted : name ∈ l.wants owner) :
    ∃ holder, l.isGranted holder name = true := by
  obtain ⟨c, mem, rfl⟩ := List.mem_map.1 wanted
  have mem := (List.mem_filter.1 mem).1
  obtain ⟨d, memD, same, granted⟩ := (h.granted c mem).resolve_left List.not_mem_nil
  have entries : ∀ c ∈ l.claims, (⟨c.name, c.lock⟩ : LockEntry) ∈ l.entries :=
    fun c mem => List.mem_of_find?_eq_some (sound.entry c mem)
  have named := h.apart _ (entries d memD) _ (entries c mem) same
  exact ⟨d.owner, isGranted_iff.2 ⟨d, memD, rfl, congrArg LockEntry.name named, granted⟩⟩

end Served

theorem mem_wants (h : l.isGranted owner name = true) : name ∈ l.wants owner := by
  obtain ⟨c, mem, rfl, rfl, -⟩ := isGranted_iff.1 h
  exact List.mem_map_of_mem (List.mem_filter.2 ⟨mem, decide_eq_true rfl⟩)

theorem wants_handOver : (l.handOver lock).wants owner = l.wants owner := by
  have same : ∀ claims : List Claim,
    ((grantOldest lock claims).filter (·.owner = owner)).map (·.name) =
      (claims.filter (·.owner = owner)).map (·.name) := by
    intro claims
    induction claims with
    | nil => rfl
    | cons c claims ih =>
      simp only [grantOldest]
      split
      · simp only [List.filter_cons]
        split <;> rfl
      · simp only [List.filter_cons]
        split
        · exact congrArg (c.name :: ·) ih
        · exact ih
  unfold handOver
  split
  · rfl
  · exact same l.claims

theorem wants_dropWhere : (l.dropWhere picks).wants owner =
    ((l.claims.filter (!picks ·)).filter (·.owner = owner)).map (·.name) :=
  dropWhere_induction (P := fun l' => l'.wants owner = _) rfl fun _ _ h => wants_handOver.trans h

theorem wants_claim {claimant : Nat} : (l.claim claimant name).wants owner =
    if claimant = owner then l.wants owner ++ [name] else l.wants owner := by
  unfold claim
  rw [wants_handOver]
  simp only [wants, enter, claims_lookup, List.filter_append, List.map_append]
  by_cases mine : claimant = owner
  · simp [mine]
  · simp [mine]

theorem wants_forget : (l.forget name).wants owner = l.wants owner := by
  unfold forget
  split
  · rfl
  · split <;> rfl

theorem wants_release : (l.release name how).wants owner = (l.handBack name).wants owner := by
  cases how with
  | plain => rfl
  | tidy => exact wants_forget

theorem wants_spared (spared : ∀ c ∈ l.claims, c.owner = owner → picks c = false) :
    (l.dropWhere picks).wants owner = l.wants owner := by
  rw [wants_dropWhere, List.filter_filter, wants]
  refine congrArg _ (List.filter_congr fun c mem => ?_)
  by_cases mine : c.owner = owner
  · simp [mine, spared c mem mine]
  · simp [mine]

/-- If the one claim of an owner is taken away, it has none. -/
theorem wants_taken {wanted : LockName} (only : l.wants owner = [wanted])
    (taken : ∃ c ∈ l.claims, c.owner = owner ∧ picks c = true) :
    (l.dropWhere picks).wants owner = [] := by
  obtain ⟨c, only, -⟩ := List.map_eq_singleton_iff.1 only
  have all : ∀ d ∈ l.claims, d.owner = owner → d = c := fun d mem mine =>
    List.mem_singleton.1 (only ▸ List.mem_filter.2 ⟨mem, decide_eq_true mine⟩)
  obtain ⟨e, mem, mine, picked⟩ := taken
  rw [wants_dropWhere, List.map_eq_nil_iff, List.filter_eq_nil_iff]
  intro d mem' mine'
  obtain ⟨mem', kept⟩ := List.mem_filter.1 mem'
  rw [all d mem' (of_decide_eq_true mine'), ← all e mem mine, picked] at kept
  cases kept

theorem wants_release_other (sound : l.Sound) {holder : Nat}
    (holds : l.isGranted holder name = true) (ne : owner ≠ holder) :
    (l.release name how).wants owner = l.wants owner := by
  rw [wants_release]
  refine wants_spared fun c mem mine => ?_
  by_contra picked
  simp only [Bool.not_eq_false, Bool.and_eq_true, decide_eq_true_eq] at picked
  exact ne (sound.exclusive (isGranted_iff.2 ⟨c, mem, mine, picked⟩) holds)

theorem wants_release_own (only : l.wants owner = [name]) (holds : l.isGranted owner name = true) :
    (l.release name how).wants owner = [] := by
  rw [wants_release]
  obtain ⟨c, mem, mine, named, granted⟩ := isGranted_iff.1 holds
  exact wants_taken only ⟨c, mem, mine, by simp [named, granted]⟩

theorem wants_giveUp_other {loser : Nat} (ne : owner ≠ loser) :
    (l.giveUp loser name).wants owner = l.wants owner :=
  wants_spared fun c _ mine => by simp [mine, ne]

theorem wants_giveUp_own (only : l.wants owner = [name])
    (lacks : ¬ l.isGranted owner name = true) :
    (l.giveUp owner name).wants owner = [] := by
  have wanted : name ∈ l.wants owner := only ▸ List.mem_singleton_self name
  obtain ⟨c, mem, named⟩ := List.mem_map.1 wanted
  obtain ⟨mem, mine⟩ := List.mem_filter.1 mem
  have mine := of_decide_eq_true mine
  refine wants_taken only ⟨c, mem, mine, ?_⟩
  have waits : c.granted = false := by
    by_contra granted
    exact lacks (isGranted_iff.2 ⟨c, mem, mine, named, by simpa using granted⟩)
  simp [mine, named, waits]

end ControlPlane.Work.Locks
