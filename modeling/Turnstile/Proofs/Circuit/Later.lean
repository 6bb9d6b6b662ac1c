import Turnstile.Circuit.Breaker
import Turnstile.Proofs.Word

/-!
# Circuits at a later time

A circuit looks at times only to measure how long it has been open.  So where everything happens
later by some span, it goes through the same states.

* `Circuit.later`: a circuit that has opened later.
* `Circuit.Settled`: no circuit has opened after the instant, and an open one knows when it did.
* `Circuit.poll_later`, `Circuit.succeed_later`, `Circuit.fail_later`: the moves of moved circuits.
* `Breaker.statusOf_later`: how a moved circuit is seen.
-/

set_option autoImplicit false

namespace Turnstile

open Circuit (Key)

namespace Circuit

variable {d now : UInt64} {c c' : Circuit} {t : Thresholds}

def later (d : UInt64) (c : Circuit) : Circuit := { c with openedAt := c.openedAt.map (· + d) }

/-- A circuit as it is at an instant: it has not opened after that, and if it is open it has opened
at some time. -/
structure Settled (now : UInt64) (c : Circuit) : Prop where
  openedAt_le : ∀ opened ∈ c.openedAt, opened ≤ now
  openedAt_ne : c.state = .open → c.openedAt ≠ none

theorem Settled.mono {later : UInt64} (h : c.Settled now) (hle : now ≤ later) : c.Settled later :=
  ⟨fun opened hopened => UInt64.le_trans (h.openedAt_le opened hopened) hle, h.openedAt_ne⟩

theorem settled_fresh (now : UInt64) : fresh.Settled now := ⟨nofun, nofun⟩

theorem later_inj : c.later d = c'.later d ↔ c = c' := by
  refine ⟨fun h => ?_, congrArg _⟩
  have hopened : c.openedAt = c'.openedAt :=
    Option.map_injective (fun _ _ => (UInt64.add_left_inj d).mp) (congrArg openedAt h)
  obtain ⟨state, failures, successes, openedAt⟩ := c
  obtain ⟨state', failures', successes', openedAt'⟩ := c'
  obtain ⟨rfl, rfl, rfl, _⟩ := Circuit.mk.inj h
  rw [show openedAt = openedAt' from hopened]

/-! ## Moves -/

theorem settled_poll (h : c.Settled now) : (c.poll t now).2.Settled now := by
  unfold poll
  split
  · exact h
  · exact h
  · split
    · exact ⟨h.openedAt_le, nofun⟩
    · exact h

theorem settled_trip (c : Circuit) (now : UInt64) : (c.trip now).Settled now := by
  refine ⟨fun opened hopened => ?_, nofun⟩
  cases hopened
  exact UInt64.le_refl now

theorem settled_succeed (h : c.Settled now) : (c.succeed t).Settled now := by
  unfold succeed
  split
  · rename_i hs
    exact ⟨h.openedAt_le, h.openedAt_ne⟩
  · dsimp only
    split
    · exact settled_fresh now
    · exact ⟨h.openedAt_le, h.openedAt_ne⟩
  · exact h

theorem settled_fail (h : c.Settled now) : (c.fail t now).Settled now := by
  unfold fail
  split
  · dsimp only
    split
    · exact settled_trip _ now
    · exact ⟨h.openedAt_le, h.openedAt_ne⟩
  · exact settled_trip c now
  · exact h

theorem succeed_later (c : Circuit) (t : Thresholds) (d : UInt64) :
    (c.later d).succeed t = (c.succeed t).later d := by
  obtain ⟨state, failures, successes, openedAt⟩ := c
  cases state with
  | closed => rfl
  | halfOpen =>
    dsimp only [succeed, later]
    by_cases hdone : t.successes ≤ satSucc32 successes
    · simp only [if_pos hdone]
      rfl
    · simp only [if_neg hdone]
  | «open» => rfl

theorem fail_later (c : Circuit) (t : Thresholds) (now d : UInt64) :
    (c.later d).fail t (now + d) = (c.fail t now).later d := by
  obtain ⟨state, failures, successes, openedAt⟩ := c
  cases state with
  | closed =>
    dsimp only [fail, later]
    by_cases htrips : t.failures ≤ satSucc32 failures
    · simp only [if_pos htrips]
      rfl
    · simp only [if_neg htrips]
  | halfOpen => rfl
  | «open» => rfl

theorem poll_later (h : c.Settled now) (hroom : now.toNat + d.toNat < wordCount) :
    (c.later d).poll t (now + d) = ((c.poll t now).1, (c.poll t now).2.later d) := by
  cases hs : c.state with
  | closed => simp [poll, later, hs]
  | halfOpen => simp [poll, later, hs]
  | «open» =>
    obtain ⟨opened, hopened⟩ := Option.ne_none_iff_exists'.mp (h.openedAt_ne hs)
    have hle := h.openedAt_le opened hopened
    rw [UInt64.le_iff_toNat_le] at hle
    have hrested : (c.later d).rested t (now + d) = c.rested t now := by
      simp only [rested, later, hopened, Option.map_some, Option.getD_some,
        satSub_add_add hroom (show opened.toNat + d.toNat < wordCount by omega)]
    have hopen : (c.later d).state = .open := hs
    unfold poll
    rw [hs, hopen, hrested]
    dsimp only
    split <;> rfl

/-- The probe that a circuit announces can be moved. -/
theorem nextProbe_room (h : c.Settled now)
    (hroom : now.toNat + d.toNat + t.timeout.toNat < wordCount) {probe : UInt64}
    (hprobe : probe ∈ c.nextProbe t) : probe.toNat + d.toNat < wordCount := by
  unfold nextProbe at hprobe
  split at hprobe
  · obtain ⟨opened, hopened, rfl⟩ := Option.map_eq_some_iff.mp hprobe
    have hle := h.openedAt_le opened hopened
    rw [UInt64.le_iff_toNat_le] at hle
    rw [toNat_satAdd]
    omega
  · cases hprobe

theorem nextProbe_later (h : c.Settled now)
    (hroom : now.toNat + d.toNat + t.timeout.toNat < wordCount) :
    (c.later d).nextProbe t = (c.nextProbe t).map (· + d) := by
  unfold nextProbe later
  dsimp only
  split
  · cases hopened : c.openedAt with
    | none => rfl
    | some opened =>
      have hle := h.openedAt_le opened hopened
      rw [UInt64.le_iff_toNat_le] at hle
      exact congrArg some (satAdd_add (by omega))
  · rfl

end Circuit

/-- A circuit as others see it, later. -/
def Circuit.Status.later (d : UInt64) (s : Circuit.Status) : Circuit.Status :=
  ⟨s.key, s.circuit.later d, s.nextProbe.map (· + d)⟩

theorem Breaker.statusOf_later {b : Breaker} {c : Circuit} {now d : UInt64} (key : Key)
    (h : c.Settled now) (hroom : now.toNat + d.toNat + b.thresholds.timeout.toNat < wordCount) :
    b.statusOf key (c.later d) = (b.statusOf key c).later d := by
  simp only [statusOf, Circuit.nextProbe_later h hroom, Circuit.Status.later]

end Turnstile
