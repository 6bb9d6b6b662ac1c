import Mathlib.Data.List.DropRight
import Turnstile.Circuit.Machine
import Turnstile.Proofs.Word

/-!
# What the record of a circuit says about its history

A circuit that starts fresh makes a run of moves, at any instants and in any order.  Its record then
tells how it came to be where it is: a closed circuit has counted the failures since the last
success, an open one knows when it last opened, and a half-open one has counted the successes since
it became half-open.

* `Circuit.Move`, `Circuit.move`: the three moves as one.
* `Circuit.history`: the moves of a run with the circuits before and after each of them.
* `Circuit.Recounts`: what a record says about a history.
* `Circuit.recounts_move`, `Circuit.recounts_after`: one move, and a run.
-/

set_option autoImplicit false

namespace Turnstile.Circuit

/-- A move of a circuit. -/
inductive Move where
  | poll (now : UInt64)
  | succeed
  | fail (now : UInt64)
  deriving DecidableEq, Repr

/-- The circuit after a move. -/
def move (c : Circuit) (t : Thresholds) : Move → Circuit
  | .poll now => (c.poll t now).2
  | .succeed => c.succeed t
  | .fail now => c.fail t now

/-- The circuit after a run of moves. -/
def after (t : Thresholds) (moves : List Move) : Circuit := moves.foldl (fun c m => c.move t m) fresh

/-! ## Histories -/

/-- A move with the circuits before and after it. -/
structure Passage where
  before : Circuit
  move : Move
  after : Circuit

namespace Passage

def isSuccess (s : Passage) : Bool := s.move = .succeed

def isFailure (s : Passage) : Bool :=
  match s.move with
  | .fail _ => true
  | _ => false

/-- Whether a circuit enters a state. -/
def enters (state : State) (s : Passage) : Bool := s.before.state ≠ state && s.after.state = state

/-- The instant of a failure that opens a circuit. -/
def tripAt (s : Passage) : Option UInt64 :=
  match s.move with
  | .fail now => if s.enters .open then some now else none
  | _ => none

/-- What a move counts it counts in full: the counter that goes up is not at its largest word. -/
structure Exact (s : Passage) : Prop where
  failure : s.isFailure = true → s.before.state = .closed →
    (satSucc32 s.before.failures).toNat = s.before.failures.toNat + 1
  success : s.isSuccess = true → s.before.state = .halfOpen →
    (satSucc32 s.before.successes).toNat = s.before.successes.toNat + 1

end Passage

def passages (t : Thresholds) (c : Circuit) : List Move → List Passage
  | [] => []
  | m :: moves => ⟨c, m, c.move t m⟩ :: passages t (c.move t m) moves

/-- The moves of a run of a fresh circuit, with the circuits before and after each of them. -/
def history (t : Thresholds) (moves : List Move) : List Passage := passages t fresh moves

/-- The passages after the last one of a kind. -/
def since (kind : Passage → Bool) (history : List Passage) : List Passage :=
  history.rtakeWhile fun s => !kind s

/-- The instant of the last failure that opened the circuit. -/
def lastTrip (history : List Passage) : Option UInt64 := (history.filterMap Passage.tripAt).getLast?

/-- What a record says about a history. -/
structure Recounts (t : Thresholds) (history : List Passage) (c : Circuit) : Prop where
  closed : c.state = .closed → c.successes = 0 ∧ c.openedAt = none ∧
    c.failures.toNat < t.failures.toNat ∧
    c.failures.toNat =
      (since (fun s => s.isSuccess || s.enters .closed) history).countP Passage.isFailure
  «open» : c.state = .open → c.successes = 0 ∧ c.failures = t.failures ∧
    c.openedAt.isSome = true ∧ c.openedAt = lastTrip history
  halfOpen : c.state = .halfOpen → c.failures = t.failures ∧ c.openedAt.isSome = true ∧
    c.successes.toNat < t.successes.toNat ∧
    c.successes.toNat = (since (Passage.enters .halfOpen) history).countP Passage.isSuccess

section

variable {t : Thresholds} {past : List Passage} {s : Passage} {kind : Passage → Bool}

theorem since_of_kind (h : kind s = true) : since kind (past ++ [s]) = [] :=
  List.rtakeWhile_concat_neg _ _ _ (by simp [h])

theorem since_of_not_kind (h : kind s = false) :
    since kind (past ++ [s]) = since kind past ++ [s] :=
  List.rtakeWhile_concat_pos _ _ _ (by simp [h])

/-- A move that is neither of a kind nor counted leaves the count since then. -/
theorem countP_since (h : kind s = false) {counted : Passage → Bool} :
    (since kind (past ++ [s])).countP counted =
      (since kind past).countP counted + if counted s then 1 else 0 := by
  rw [since_of_not_kind h, List.countP_append, List.countP_singleton]

theorem lastTrip_of_trip {now : UInt64} (h : s.tripAt = some now) :
    lastTrip (past ++ [s]) = some now := by
  simp [lastTrip, h]

theorem lastTrip_of_no_trip (h : s.tripAt = none) : lastTrip (past ++ [s]) = lastTrip past := by
  simp [lastTrip, h]

/-! ## One move -/

variable {c : Circuit} {m : Move}

/-- A failure brings a closed circuit to the threshold, or is counted below it. -/
theorem fail_closed (h : c.state = .closed) (hlt : c.failures.toNat < t.failures.toNat)
    (now : UInt64) :
    (c.fail t now = ⟨.open, t.failures, 0, some now⟩) ∨
      c.failures.toNat + 1 < t.failures.toNat ∧
        c.fail t now = ⟨.closed, satSucc32 c.failures, c.successes, c.openedAt⟩ := by
  have hcount := toNat_satSucc32_of_lt hlt
  simp only [fail, h]
  by_cases hle : t.failures ≤ satSucc32 c.failures
  · have heq : satSucc32 c.failures = t.failures := by
      rw [UInt32.le_iff_toNat_le, hcount] at hle
      apply UInt32.toNat.inj
      omega
    rw [if_pos hle, heq]
    exact .inl rfl
  · rw [if_neg hle]
    rw [UInt32.le_iff_toNat_le, hcount] at hle
    exact .inr ⟨by omega, rfl⟩

/-- A success closes a half-open circuit, or is counted below the threshold. -/
theorem succeed_halfOpen (h : c.state = .halfOpen) (hlt : c.successes.toNat < t.successes.toNat) :
    c.succeed t = fresh ∨
      c.successes.toNat + 1 < t.successes.toNat ∧
        c.succeed t = ⟨.halfOpen, c.failures, satSucc32 c.successes, c.openedAt⟩ := by
  have hcount := toNat_satSucc32_of_lt hlt
  simp only [succeed, h]
  by_cases hle : t.successes ≤ satSucc32 c.successes
  · rw [if_pos hle]
    exact .inl rfl
  · rw [if_neg hle]
    rw [UInt32.le_iff_toNat_le, hcount] at hle
    exact .inr ⟨by omega, rfl⟩

/-- A move that leaves the circuit alone, and counts in no state that counts it, leaves the record
saying what it said. -/
theorem Recounts.stay (h : Recounts t past c) (m : Move)
    (hm : c.state = .open ∨ ∃ now, m = .poll now) : Recounts t (past ++ [⟨c, m, c⟩]) c := by
  have henters : ∀ state, (⟨c, m, c⟩ : Passage).enters state = false := fun state => by
    simp [Passage.enters]
  have htrip : (⟨c, m, c⟩ : Passage).tripAt = none := by
    cases m <;> simp [Passage.tripAt, henters]
  refine ⟨fun hs => ?_, fun hs => ?_, fun hs => ?_⟩
  · obtain ⟨hzero, hopened, hlt, hcount⟩ := h.closed hs
    obtain ⟨now, rfl⟩ := hm.resolve_left (by simp [hs])
    refine ⟨hzero, hopened, hlt, ?_⟩
    rw [hcount, countP_since]
    · rfl
    · rw [henters]
      rfl
  · obtain ⟨hzero, hfail, hsome, hlast⟩ := h.open hs
    exact ⟨hzero, hfail, hsome, hlast.trans (lastTrip_of_no_trip htrip).symm⟩
  · obtain ⟨hfail, hsome, hlt, hcount⟩ := h.halfOpen hs
    obtain ⟨now, rfl⟩ := hm.resolve_left (by simp [hs])
    refine ⟨hfail, hsome, hlt, ?_⟩
    rw [hcount, countP_since (henters _)]
    rfl

/-- A circuit that has become half-open by a poll has counted no success yet. -/
theorem recounts_rested (h : Recounts t past c) (hsucc : 0 < t.successes.toNat)
    (hopen : c.state = .open) (now : UInt64) {c' : Circuit}
    (hc' : c' = { c with state := .halfOpen, successes := 0 }) :
    Recounts t (past ++ [⟨c, .poll now, c'⟩]) c' := by
  subst hc'
  obtain ⟨_, hfail, hsome, _⟩ := h.open hopen
  refine ⟨nofun, nofun, fun _ => ⟨hfail, hsome, hsucc, ?_⟩⟩
  rw [since_of_kind (by simp [Passage.enters, hopen])]
  rfl

/-- A circuit that a failure has opened knows the instant of it. -/
theorem recounts_tripped (hne : c.state ≠ .open) (now : UInt64) {c' : Circuit}
    (hc' : c' = ⟨.open, t.failures, 0, some now⟩) :
    Recounts t (past ++ [⟨c, .fail now, c'⟩]) c' := by
  subst hc'
  refine ⟨nofun, fun _ => ⟨rfl, rfl, rfl, ?_⟩, nofun⟩
  have htrip : (⟨c, .fail now, ⟨.open, t.failures, 0, some now⟩⟩ : Passage).tripAt = some now := by
    simp [Passage.tripAt, Passage.enters, hne]
  exact (lastTrip_of_trip htrip).symm

/-- A closed circuit has counted no failure since a success. -/
theorem recounts_succeeded (hfail : 0 < t.failures.toNat) {c' : Circuit} (hc' : c' = fresh) :
    Recounts t (past ++ [⟨c, .succeed, c'⟩]) c' := by
  subst hc'
  refine ⟨fun _ => ⟨rfl, rfl, hfail, ?_⟩, nofun, nofun⟩
  rw [since_of_kind rfl]
  rfl

/-- **One move.**  Whatever the state and the instant, the record after a move says of the history
with the move what the record before it said of the history without. -/
theorem recounts_move (hfail : 0 < t.failures.toNat) (hsucc : 0 < t.successes.toNat)
    (h : Recounts t past c) (m : Move) :
    Recounts t (past ++ [⟨c, m, c.move t m⟩]) (c.move t m) := by
  cases hstate : c.state with
  | closed =>
    obtain ⟨hzero, hopened, hlt, hcount⟩ := h.closed hstate
    cases m with
    | poll now =>
      have hsame : c.move t (.poll now) = c := by simp only [move, poll, hstate]
      rw [hsame]
      exact h.stay _ (.inr ⟨now, rfl⟩)
    | succeed =>
      refine recounts_succeeded hfail ?_
      simp [move, succeed, fresh, hstate, hzero, hopened]
    | fail now =>
      rcases fail_closed hstate hlt now with htrip | ⟨hmore, hfew⟩
      · exact recounts_tripped (by simp [hstate]) now htrip
      · have hfew : c.move t (.fail now) =
            ⟨.closed, satSucc32 c.failures, c.successes, c.openedAt⟩ := hfew
        rw [hfew]
        have hone := toNat_satSucc32_of_lt hlt
        refine ⟨fun _ => ⟨hzero, hopened, ?_, ?_⟩, nofun, nofun⟩
        · exact hone ▸ hmore
        · rw [countP_since (by simp [Passage.isSuccess, Passage.enters, hstate]), ← hcount]
          exact hone
  | «open» =>
    cases m with
    | poll now =>
      cases hrested : c.rested t now with
      | false =>
        have hsame : c.move t (.poll now) = c := by simp [move, poll, hstate, hrested]
        rw [hsame]
        exact h.stay _ (.inl hstate)
      | true => exact recounts_rested h hsucc hstate now (by simp [move, poll, hstate, hrested])
    | succeed =>
      have hsame : c.move t .succeed = c := by simp only [move, succeed, hstate]
      rw [hsame]
      exact h.stay _ (.inl hstate)
    | fail now =>
      have hsame : c.move t (.fail now) = c := by simp only [move, fail, hstate]
      rw [hsame]
      exact h.stay _ (.inl hstate)
  | halfOpen =>
    obtain ⟨hcounted, hsome, hlt, hcount⟩ := h.halfOpen hstate
    cases m with
    | poll now =>
      have hsame : c.move t (.poll now) = c := by simp only [move, poll, hstate]
      rw [hsame]
      exact h.stay _ (.inr ⟨now, rfl⟩)
    | succeed =>
      rcases succeed_halfOpen hstate hlt with hclosed | ⟨hmore, hfew⟩
      · exact recounts_succeeded hfail hclosed
      · have hfew : c.move t .succeed =
            ⟨.halfOpen, c.failures, satSucc32 c.successes, c.openedAt⟩ := hfew
        rw [hfew]
        have hone := toNat_satSucc32_of_lt hlt
        refine ⟨nofun, nofun, fun _ => ⟨hcounted, hsome, ?_, ?_⟩⟩
        · exact hone ▸ hmore
        · rw [countP_since (by simp [Passage.enters, hstate]), ← hcount]
          exact hone
    | fail now =>
      refine recounts_tripped (by simp [hstate]) now ?_
      simp only [move, fail, hstate, trip, hcounted]

/-! ## Runs -/

theorem passages_append (t : Thresholds) (c : Circuit) (moves later : List Move) :
    passages t c (moves ++ later) =
      passages t c moves ++ passages t (moves.foldl (fun c m => c.move t m) c) later := by
  induction moves generalizing c with
  | nil => rfl
  | cons m moves ih => exact congrArg (⟨c, m, c.move t m⟩ :: ·) (ih (c.move t m))

theorem history_concat (t : Thresholds) (moves : List Move) (m : Move) :
    history t (moves ++ [m]) =
      history t moves ++ [⟨after t moves, m, (after t moves).move t m⟩] :=
  passages_append t fresh moves [m]

theorem after_concat (t : Thresholds) (moves : List Move) (m : Move) :
    after t (moves ++ [m]) = (after t moves).move t m :=
  List.foldl_concat ..

/-- The record of a circuit recounts every history. -/
theorem recounts_after (hfail : 0 < t.failures.toNat) (hsucc : 0 < t.successes.toNat)
    (moves : List Move) : Recounts t (history t moves) (after t moves) := by
  induction moves using List.reverseRecOn with
  | nil => exact ⟨fun _ => ⟨rfl, rfl, hfail, rfl⟩, nofun, nofun⟩
  | append_singleton moves m ih =>
    rw [history_concat, after_concat]
    exact recounts_move hfail hsucc ih m

/-- A circuit whose counters are below their thresholds counts a move in full. -/
theorem Recounts.exact (h : Recounts t past c) (m : Move) :
    (⟨c, m, c.move t m⟩ : Passage).Exact where
  failure _ hclosed := toNat_satSucc32_of_lt (h.closed hclosed).2.2.1
  success _ hhalf := toNat_satSucc32_of_lt (h.halfOpen hhalf).2.2.1

theorem exact_of_mem_history (hfail : 0 < t.failures.toNat) (hsucc : 0 < t.successes.toNat)
    {moves : List Move} (hs : s ∈ history t moves) : s.Exact := by
  induction moves using List.reverseRecOn with
  | nil => cases hs
  | append_singleton moves m ih =>
    rw [history_concat, List.mem_append, List.mem_singleton] at hs
    rcases hs with hs | rfl
    · exact ih hs
    · exact (recounts_after hfail hsucc moves).exact m

end

/-- **The record of a circuit recounts its history.**  Let both thresholds be greater than zero, and
let a fresh circuit make any moves, at instants that may rise and fall, with any timeout.  A closed
circuit has no success counted and no instant of opening, and its failures, fewer than the threshold,
are those since the last success or closing; an open one has as many failures as the threshold, no
success counted, and the instant of the last failure that opened it; a half-open one still has the
failures and the instant, and its successes, fewer than the threshold, are those since it became
half-open.  No move on the way finds the counter that it moves at the largest word. -/
theorem after_recounts_history (t : Thresholds) (hfailures : t.failures ≠ 0)
    (hsuccesses : t.successes ≠ 0) (moves : List Move) :
    Recounts t (history t moves) (after t moves) ∧ ∀ s ∈ history t moves, s.Exact := by
  have hfail : 0 < t.failures.toNat :=
    Nat.pos_of_ne_zero fun e => hfailures (UInt32.toNat.inj e)
  have hsucc : 0 < t.successes.toNat :=
    Nat.pos_of_ne_zero fun e => hsuccesses (UInt32.toNat.inj e)
  exact ⟨recounts_after hfail hsucc moves, fun _ hs => exact_of_mem_history hfail hsucc hs⟩

/-- Two failures and a success more, with a clock that falls: the circuit is half-open, since it
became so it has counted one success, and it opened at the instant of the second failure. -/
theorem after_recounts_reopened :
    let t : Thresholds := ⟨2, 2, 5⟩
    let moves : List Move := [.fail 7, .fail 3, .succeed, .poll 9, .succeed]
    (after t moves).state = .halfOpen ∧ (after t moves).failures = 2 ∧
      (after t moves).successes.toNat =
        (since (Passage.enters .halfOpen) (history t moves)).countP Passage.isSuccess := by
  intro t moves
  obtain ⟨hrecounts, _⟩ := after_recounts_history t (by decide) (by decide) moves
  have hstate : (after t moves).state = .halfOpen := by decide
  obtain ⟨hfailures, _, _, hcount⟩ := hrecounts.halfOpen hstate
  exact ⟨hstate, hfailures, hcount⟩

end Turnstile.Circuit
