import Mathlib.Data.List.Induction

/-!
# Runs in batches

What happens one after the other may be counted in batches.  The first one opens a batch, which has
an end; those before the end belong to it, and the first one from then on opens the next batch.  The
windows of a quota are such batches, and so are the minutes in which violations are counted.

* `Batch`, `Batches`: how a run is cut into batches.
* `Batches.unique`: there is one way only.
* `Batches.concat`: one more opens a batch or belongs to the last one.
-/

set_option autoImplicit false

namespace Turnstile

variable {α : Type}

/-- What is counted together. -/
structure Batch (α : Type) where
  /-- The one that opens the batch. -/
  first : α
  /-- Those that follow it. -/
  later : List α

namespace Batch

def items (b : Batch α) : List α := b.first :: b.later

/-- A batch with one more. -/
def add (b : Batch α) (x : α) : Batch α := { b with later := b.later ++ [x] }

end Batch

/-- A run is cut into batches.  Each belongs to a batch until its end, and to a new one from then
on. -/
structure Batches (time ends : α → Nat) (run : List α) (bs : List (Batch α)) : Prop where
  run_eq : run = bs.flatMap Batch.items
  lt_ends : ∀ b ∈ bs, ∀ x ∈ b.later, time x < ends b.first
  apart : bs.Pairwise fun b b' => ∀ x ∈ b'.items, ends b.first ≤ time x

namespace Batches

variable {time ends : α → Nat} {run : List α} {bs bs' : List (Batch α)} {b : Batch α} {x : α}

theorem tail (h : Batches time ends run (b :: bs)) :
    Batches time ends (bs.flatMap Batch.items) bs :=
  ⟨rfl, fun b hb => h.lt_ends b (List.mem_cons_of_mem _ hb), (List.pairwise_cons.mp h.apart).2⟩

/-- Of those after the first one, the ones before the end of its batch belong to it. -/
theorem split_later (h : Batches time ends run (b :: bs)) :
    (run.tail.filter fun x => time x < ends b.first) = b.later ∧
      (run.tail.filter fun x => ¬ time x < ends b.first) = bs.flatMap Batch.items := by
  have hrest : ∀ x ∈ bs.flatMap Batch.items, ¬ time x < ends b.first := by
    intro x hx
    obtain ⟨b', hb', hx⟩ := List.mem_flatMap.mp hx
    have := (List.pairwise_cons.mp h.apart).1 b' hb' x hx
    omega
  have hlater := h.lt_ends b List.mem_cons_self
  have htail : run.tail = b.later ++ bs.flatMap Batch.items := by
    rw [h.run_eq, List.flatMap_cons]
    rfl
  rw [htail, List.filter_append, List.filter_append]
  constructor
  · rw [List.filter_eq_self.mpr fun x hx => by simpa using hlater x hx,
      List.filter_eq_nil_iff.mpr fun x hx => by simpa using hrest x hx, List.append_nil]
  · rw [List.filter_eq_nil_iff.mpr fun x hx => by simpa using hlater x hx,
      List.filter_eq_self.mpr fun x hx => by simpa using hrest x hx, List.nil_append]

/-- **A run is cut into batches in one way only.** -/
theorem unique (h : Batches time ends run bs) (h' : Batches time ends run bs') : bs' = bs := by
  induction bs generalizing run bs' with
  | nil =>
    cases bs' with
    | nil => rfl
    | cons b' bs' =>
      have heq := h'.run_eq.symm.trans h.run_eq
      cases heq
  | cons b bs ih =>
    cases bs' with
    | nil =>
      have heq := h.run_eq.symm.trans h'.run_eq
      cases heq
    | cons b' bs' =>
      obtain ⟨first, later⟩ := b
      obtain ⟨first', later'⟩ := b'
      obtain rfl : first = first' := (List.cons.inj (h.run_eq.symm.trans h'.run_eq)).1
      obtain ⟨hlater, hrest⟩ := h.split_later
      obtain ⟨hlater', hrest'⟩ := h'.split_later
      obtain rfl : later' = later := hlater'.symm.trans hlater
      have htail := h'.tail
      rw [← hrest', hrest] at htail
      rw [ih h.tail htail]

/-- One more when all batches have ended opens one. -/
theorem start (h : Batches time ends run bs) (hends : ∀ b ∈ bs, ends b.first ≤ time x) :
    Batches time ends (run ++ [x]) (bs ++ [⟨x, []⟩]) where
  run_eq := by simp [h.run_eq, Batch.items]
  lt_ends b hb y hy := by
    rcases List.mem_append.mp hb with hb | hb
    · exact h.lt_ends b hb y hy
    · rw [List.mem_singleton.mp hb] at hy
      cases hy
  apart := by
    rw [List.pairwise_append]
    refine ⟨h.apart, List.pairwise_singleton .., ?_⟩
    intro b hb b' hb' y hy
    rw [List.mem_singleton.mp hb'] at hy
    rw [List.mem_singleton.mp hy]
    exact hends b hb

/-- One more before the end of the last batch belongs to it. -/
theorem add (h : Batches time ends run (bs ++ [b])) (hends : time x < ends b.first)
    (hfirst : time b.first ≤ time x) : Batches time ends (run ++ [x]) (bs ++ [b.add x]) where
  run_eq := by simp [h.run_eq, Batch.items, Batch.add]
  lt_ends b' hb' y hy := by
    rcases List.mem_append.mp hb' with hb' | hb'
    · exact h.lt_ends b' (List.mem_append_left _ hb') y hy
    · rw [List.mem_singleton.mp hb'] at hy ⊢
      rcases List.mem_append.mp hy with hy | hy
      · exact h.lt_ends b (by simp) y hy
      · rw [List.mem_singleton.mp hy]
        exact hends
  apart := by
    obtain ⟨hbs, _, hlast⟩ := List.pairwise_append.mp h.apart
    rw [List.pairwise_append]
    refine ⟨hbs, List.pairwise_singleton .., ?_⟩
    intro b' hb' _ hb y hy
    have hlast := hlast b' hb' b (by simp)
    rw [List.mem_singleton.mp hb] at hy
    rcases List.mem_append.mp (show y ∈ b.items ++ [x] from hy) with hy | hy
    · exact hlast y hy
    · rw [List.mem_singleton.mp hy]
      exact Nat.le_trans (hlast b.first List.mem_cons_self) hfirst

/-- Whoever comes after the end of the last batch comes after the end of all. -/
theorem ends_le (h : Batches time ends run (bs ++ [b])) (hfirst : time b.first ≤ time x)
    (hends : ends b.first ≤ time x) : ∀ b' ∈ bs ++ [b], ends b'.first ≤ time x := by
  intro b' hb'
  rcases List.mem_append.mp hb' with hb' | hb'
  · have hlast := (List.pairwise_append.mp h.apart).2.2 b' hb' b (by simp)
    exact Nat.le_trans (hlast b.first List.mem_cons_self) hfirst
  · rw [List.mem_singleton.mp hb']
    exact hends

/-- **One more opens a batch**, if the last one has ended, **or belongs to the last one.** -/
theorem concat (h : Batches time ends run bs) (hle : ∀ y ∈ run, time y ≤ time x) :
    (∀ b ∈ bs.getLast?, ends b.first ≤ time x) ∧
        Batches time ends (run ++ [x]) (bs ++ [⟨x, []⟩]) ∨
      ∃ init b, bs = init ++ [b] ∧ time x < ends b.first ∧
        Batches time ends (run ++ [x]) (init ++ [b.add x]) := by
  cases bs using List.reverseRecOn with
  | nil => exact .inl ⟨nofun, h.start nofun⟩
  | append_singleton bs b =>
    have hfirst : time b.first ≤ time x := hle b.first (by simp [h.run_eq, Batch.items])
    rcases Nat.lt_or_ge (time x) (ends b.first) with hlt | hends
    · exact .inr ⟨bs, b, rfl, hlt, h.add hlt hfirst⟩
    · refine .inl ⟨?_, h.start (h.ends_le hfirst hends)⟩
      simpa using hends

end Batches

end Turnstile
