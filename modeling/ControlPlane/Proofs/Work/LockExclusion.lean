import ControlPlane.Work.Locks
import Mathlib.Data.List.Pairwise

/-!
# Locks exclude

A name stands for the lock that its claims are to, as long as there are any, and of the claims to
one lock at most one is granted. So nobody else holds a lock that somebody holds. A lock that is
granted stays granted until it is given back.
-/

namespace ControlPlane.Work.Locks
variable {l : Locks} {owner other lock : Nat} {name : LockName}

structure Sound (l : Locks) : Prop where
  entry : ∀ c ∈ l.claims, l.entry? c.name = some ⟨c.name, c.lock⟩
  one : l.claims.Pairwise fun c d => c.granted = true → d.granted = true → c.lock ≠ d.lock

theorem sound_empty : Sound {} := ⟨by simp, .nil⟩

theorem isGranted_iff : l.isGranted owner name = true ↔
    ∃ c ∈ l.claims, c.owner = owner ∧ c.name = name ∧ c.granted = true := by
  simp [isGranted, and_assoc]

/-- Whoever claims a machine claims the same lock. -/
theorem Sound.lock_eq (h : l.Sound) {c d : Claim} (memC : c ∈ l.claims) (memD : d ∈ l.claims)
    (same : c.name = d.name) : c.lock = d.lock := by
  have entryC := h.entry c memC
  have entryD := h.entry d memD
  rw [same, entryD] at entryC
  exact (congrArg LockEntry.lock (Option.some.inj entryC)).symm

theorem Sound.exclusive (h : l.Sound) (mine : l.isGranted owner name = true)
    (theirs : l.isGranted other name = true) : owner = other := by
  obtain ⟨c, memC, rfl, nameC, grantedC⟩ := isGranted_iff.1 mine
  obtain ⟨d, memD, rfl, nameD, grantedD⟩ := isGranted_iff.1 theirs
  have same : c.lock = d.lock := h.lock_eq memC memD (nameC.trans nameD.symm)
  by_contra ne
  have : Std.Symm fun c d : Claim => c.granted = true → d.granted = true → c.lock ≠ d.lock :=
    ⟨fun _ _ h granted granted' => (h granted' granted).symm⟩
  have apart : c ≠ d := fun e => ne (congrArg Claim.owner e)
  exact h.one.forall memC memD apart grantedC grantedD same

section
variable {c : Claim} {claims : List Claim}

theorem mem_grantOldest (mem : c ∈ grantOldest lock claims) :
    ∃ d ∈ claims, c.name = d.name ∧ c.lock = d.lock ∧
      (c.granted = true → d.granted = true ∨ d.lock = lock) := by
  induction claims with
  | nil => cases mem
  | cons d claims ih =>
    simp only [grantOldest] at mem
    split at mem
    next here =>
      rcases List.mem_cons.1 mem with rfl | mem
      · exact ⟨d, by simp, rfl, rfl, fun _ => .inr here⟩
      · exact ⟨c, by simp [mem], rfl, rfl, .inl⟩
    next there =>
      rcases List.mem_cons.1 mem with rfl | mem
      · exact ⟨c, by simp, rfl, rfl, .inl⟩
      · obtain ⟨e, mem, found⟩ := ih mem
        exact ⟨e, List.mem_cons_of_mem _ mem, found⟩

theorem mem_grantOldest_of_granted (mem : c ∈ claims) (granted : c.granted = true) :
    c ∈ grantOldest lock claims := by
  induction claims with
  | nil => cases mem
  | cons d claims ih =>
    simp only [grantOldest]
    rcases List.mem_cons.1 mem with rfl | mem
    · split
      · obtain ⟨owner, name, lock, granted'⟩ := c
        cases granted
        simp
      · simp
    · split
      · simp [mem]
      · simp [ih mem]

theorem pairwise_grantOldest
    (one : claims.Pairwise fun c d => c.granted = true → d.granted = true → c.lock ≠ d.lock)
    (free : ∀ c ∈ claims, c.granted = true → c.lock ≠ lock) :
    (grantOldest lock claims).Pairwise fun c d => c.granted = true → d.granted = true →
    c.lock ≠ d.lock := by
  induction claims with
  | nil => exact .nil
  | cons c claims ih =>
    rw [List.pairwise_cons] at one
    simp only [grantOldest]
    split
    next here =>
      refine List.pairwise_cons.2 ⟨fun d mem _ granted => ?_, one.2⟩
      exact fun e => free d (by simp [mem]) granted (e.symm.trans here)
    next there =>
      refine List.pairwise_cons.2 ⟨fun d mem grantedC grantedD => ?_, ih one.2 fun d mem =>
        free d (by simp [mem])⟩
      obtain ⟨e, memE, -, sameLock, granted⟩ := mem_grantOldest mem
      rw [sameLock]
      rcases granted grantedD with granted | there'
      · exact one.1 e memE grantedC granted
      · exact fun same => there (same.trans there')

end

section
variable (l lock)

theorem Sound.handOver (h : l.Sound) : (l.handOver lock).Sound := by
  unfold Locks.handOver
  split
  · exact h
  next free =>
    refine ⟨fun c mem => ?_, pairwise_grantOldest h.one fun c mem granted same => ?_⟩
    · obtain ⟨d, mem, sameName, sameLock, -⟩ := mem_grantOldest mem
      rw [sameName, sameLock]
      exact h.entry d mem
    · refine free (List.any_eq_true.2 ⟨c, mem, ?_⟩)
      simp [same, granted]

theorem isGranted_handOver (h : l.isGranted owner name = true) :
    (l.handOver lock).isGranted owner name = true := by
  unfold Locks.handOver
  split
  · exact h
  · obtain ⟨c, mem, rest⟩ := isGranted_iff.1 h
    exact isGranted_iff.2 ⟨c, mem_grantOldest_of_granted mem rest.2.2, rest⟩

end

/-- What holds of the locks without some claims also holds after the handing over. -/
theorem dropWhere_induction {P : Locks → Prop} {picks : Claim → Bool}
    (start : P { l with claims := l.claims.filter (!picks ·) })
    (step : ∀ l lock, P l → P (l.handOver lock)) : P (l.dropWhere picks) := by
  unfold dropWhere
  -- The claims that go are fixed before the first lock is handed over.
  generalize l.claims.filter picks = dropped
  generalize { l with claims := l.claims.filter (!picks ·) } = rest at start
  induction dropped generalizing rest with
  | nil => exact start
  | cons c dropped ih => exact ih _ (step rest c.lock start)

theorem Sound.dropWhere (h : l.Sound) (picks : Claim → Bool) : (l.dropWhere picks).Sound := by
  refine dropWhere_induction ⟨fun c mem => ?_, h.one.filter _⟩ fun l lock h => h.handOver l lock
  exact h.entry c (List.mem_filter.1 mem).1

theorem isGranted_dropWhere {picks : Claim → Bool} (h : l.isGranted owner name = true)
    (spared : ∀ c ∈ l.claims, c.owner = owner → c.name = name →
      c.granted = true → picks c = false) :
    (l.dropWhere picks).isGranted owner name = true := by
  refine dropWhere_induction ?_ fun l lock h => isGranted_handOver l lock h
  obtain ⟨c, mem, here, named, granted⟩ := isGranted_iff.1 h
  refine isGranted_iff.2 ⟨c, List.mem_filter.2 ⟨mem, ?_⟩, here, named, granted⟩
  simp [spared c mem here named granted]

theorem entry?_lookup (l : Locks) (name : LockName) :
    Locks.entry? (l.lookup name).2 name = some ⟨name, (l.lookup name).1⟩ := by
  unfold lookup
  split
  next e found =>
    have named : e.name = name := by simpa using List.find?_some found
    subst named
    exact found
  · simp [ entry?]

theorem entry?_lookup_of_some {e : LockEntry} {other : LockName} (h : l.entry? other = some e) :
    Locks.entry? (l.lookup name).2 other = some e := by
  unfold lookup
  split
  · exact h
  next missing =>
    have ne : name ≠ other := by
      rintro rfl
      rw [missing] at h
      cases h
    simpa [ entry?, List.find?_cons, ne] using h

theorem claims_lookup (l : Locks) (name : LockName) : (l.lookup name).2.claims = l.claims := by
  unfold lookup
  split <;> rfl

theorem Sound.enter (h : l.Sound) (owner : Nat) (name : LockName) : (l.enter owner name).Sound := by
  refine ⟨fun c mem => ?_, ?_⟩
  · simp only [Locks.enter, claims_lookup] at mem
    rcases List.mem_append.1 mem with mem | mem
    · exact entry?_lookup_of_some (h.entry c mem)
    · rw [List.mem_singleton.1 mem]
      exact entry?_lookup l name
  · simp only [Locks.enter, claims_lookup]
    refine List.pairwise_append.2
      ⟨h.one, List.pairwise_singleton .., fun c _ d mem _ granted => ?_⟩
    rw [List.mem_singleton.1 mem] at granted
    cases granted

theorem Sound.claim (h : l.Sound) (owner : Nat) (name : LockName) : (l.claim owner name).Sound :=
  (h.enter owner name).handOver _ _

theorem isGranted_claim {claimant : Nat} {wanted : LockName} (h : l.isGranted owner name = true) :
    (l.claim claimant wanted).isGranted owner name = true := by
  refine isGranted_handOver _ _ ?_
  obtain ⟨c, mem, rest⟩ := isGranted_iff.1 h
  refine isGranted_iff.2 ⟨c, ?_, rest⟩
  simp only [enter, claims_lookup]
  exact List.mem_append_left _ mem

theorem Sound.giveUp (h : l.Sound) (owner : Nat) (name : LockName) : (l.giveUp owner name).Sound :=
  h.dropWhere _

/-- Whoever gives up waiting takes no lock out of anybody's hands. -/
theorem isGranted_giveUp {loser : Nat} {wanted : LockName} (h : l.isGranted owner name = true) :
    (l.giveUp loser wanted).isGranted owner name = true :=
  isGranted_dropWhere h fun c _ _ _ granted => by simp [granted]

theorem Sound.forget (h : l.Sound) (name : LockName) : (l.forget name).Sound := by
  unfold Locks.forget
  split
  · exact h
  next e found =>
    split
    · exact h
    next unwanted =>
      refine ⟨fun c mem => ?_, h.one⟩
      have ne : c.name ≠ name := by
        intro same
        have entry := h.entry c mem
        rw [same, found] at entry
        refine unwanted (List.any_eq_true.2 ⟨c, mem, ?_⟩)
        have := congrArg LockEntry.lock (Option.some.inj entry)
        simp only at this
        simp [this]
      have entry := h.entry c mem
      simp only [ entry?, List.find?_filter] at entry ⊢
      rw [← entry]
      congr 1
      funext e
      grind

theorem isGranted_forget (h : l.isGranted owner name = true) (other : LockName) :
    (l.forget other).isGranted owner name = true := by
  unfold forget
  split
  · exact h
  · split <;> exact h

theorem Sound.release (h : l.Sound) (name : LockName) (how : Release) :
    (l.release name how).Sound := by
  cases how with
  | tidy => exact (h.dropWhere _).forget name
  | plain => exact h.dropWhere _

theorem isGranted_release_of_ne {held : LockName} {how : Release} (ne : name ≠ held)
    (h : l.isGranted owner name = true) : (l.release held how).isGranted owner name = true := by
  have kept : (l.handBack held).isGranted owner name = true :=
    isGranted_dropWhere h fun c _ _ named _ => by simp [named, ne]
  cases how with
  | tidy => exact isGranted_forget kept held
  | plain => exact kept

/-- A lock that is given back is taken from nobody but its holder. -/
theorem Sound.isGranted_release (h : l.Sound) {holder : Nat} {held : LockName} {how : Release}
    (holds : l.isGranted holder held = true) (ne : owner ≠ holder)
    (granted : l.isGranted owner name = true) :
    (l.release held how).isGranted owner name = true := by
  refine isGranted_release_of_ne ?_ granted
  rintro rfl
  exact ne (h.exclusive granted holds)

/-! ### Numbers -/

structure Numbered (l : Locks) : Prop where
  below : ∀ e ∈ l.entries, e.lock < l.fresh
  apart : ∀ e ∈ l.entries, ∀ e' ∈ l.entries, e.lock = e'.lock → e = e'

theorem numbered_empty : Numbered {} := ⟨by simp, by simp⟩

theorem Numbered.lookup (h : l.Numbered) (name : LockName) : Numbered (l.lookup name).2 := by
  unfold Locks.lookup
  split
  · exact h
  · refine ⟨fun e mem => ?_, fun e mem e' mem' same => ?_⟩
    · rcases List.mem_cons.1 mem with rfl | mem
      · exact Nat.lt_succ_self _
      · exact Nat.lt_succ_of_lt (h.below e mem)
    · rcases List.mem_cons.1 mem with rfl | mem <;> rcases List.mem_cons.1 mem' with rfl | mem'
      · rfl
      · exact absurd same.symm (Nat.ne_of_lt (h.below e' mem'))
      · exact absurd same (Nat.ne_of_lt (h.below e mem))
      · exact h.apart e mem e' mem' same

theorem Numbered.forget (h : l.Numbered) (name : LockName) : (l.forget name).Numbered := by
  unfold Locks.forget
  split
  · exact h
  · split
    · exact h
    · exact ⟨fun e mem => h.below e (List.mem_filter.1 mem).1, fun e mem e' mem' =>
        h.apart e (List.mem_filter.1 mem).1 e' (List.mem_filter.1 mem').1⟩

end ControlPlane.Work.Locks
