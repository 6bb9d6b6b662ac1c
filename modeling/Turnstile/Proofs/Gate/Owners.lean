import Turnstile.Proofs.Gate.Actions
import Turnstile.Proofs.Gate.Places
import Turnstile.Proofs.Gate.Runs

/-!
# Whose record it is

What a tracker has under a policy is its window, its block and its circuit.  The name of each is put
together from the policy's name, a colon and the tracker's key.  Both of them may have colons of
their own, so a name may be read in two ways: what belongs to the policy's name in one of them
belongs to the tracker's key in the other.

* `append_colon_eq_iff`: two readings of a text.
* `Policy.Spills`, `Policy.Shares`: when one tracker has the records of another one.
* `Policy.shares_iff_of_not_extends`: never, if no policy's name goes on from another one's with the
  kind of a tracker.
* `Policy.names_eq_iff`: the records of a policy have the same names if and only if they are shared.
* `Gate.not_apart_alice`: two users under two policies, of whom one takes the quota of the other.
-/

set_option autoImplicit false

namespace Turnstile

open Circuit (Key)

/-! ## Two readings -/

/-- Two pairs of texts with a colon between them read the same if they are the same, or if one of
them is divided at a later colon than the other. -/
theorem append_colon_eq_iff {a b x y : String} :
    a ++ ":" ++ x = b ++ ":" ++ y ↔
      (a = b ∧ x = y) ∨ (∃ rest, b = a ++ ":" ++ rest ∧ x = rest ++ ":" ++ y) ∨
        ∃ rest, a = b ++ ":" ++ rest ∧ y = rest ++ ":" ++ x := by
  constructor
  · intro h
    have h := congrArg String.toList h
    simp only [String.toList_append, show ":".toList = [':'] from rfl, List.append_assoc,
      List.singleton_append] at h
    -- the two colons are the same one, or one of them stands in the gap
    rcases List.append_eq_append_iff.mp h with ⟨gap, hb, hx⟩ | ⟨gap, ha, hy⟩
    · cases gap with
      | nil =>
        have hba : b.toList = a.toList := by rw [hb, List.append_nil]
        exact .inl ⟨String.toList_inj.mp hba.symm, String.toList_inj.mp (List.cons.inj hx).2⟩
      | cons c rest =>
        obtain ⟨rfl, hrest⟩ := List.cons.inj hx
        refine .inr (.inl ⟨String.ofList rest, String.toList_inj.mp ?_, String.toList_inj.mp ?_⟩)
        · simpa using hb
        · simpa using hrest
    · cases gap with
      | nil =>
        have hab : a.toList = b.toList := by rw [ha, List.append_nil]
        exact .inl ⟨String.toList_inj.mp hab, String.toList_inj.mp (List.cons.inj hy).2.symm⟩
      | cons c rest =>
        obtain ⟨rfl, hrest⟩ := List.cons.inj hy
        refine .inr (.inr ⟨String.ofList rest, String.toList_inj.mp ?_, String.toList_inj.mp ?_⟩)
        · simpa using ha
        · simpa using hrest
  · rintro (⟨rfl, rfl⟩ | ⟨rest, rfl, rfl⟩ | ⟨rest, rfl, rfl⟩) <;> simp only [String.append_assoc]

/-- What stands before a colon in the key of a tracker is its kind, or goes on from it. -/
theorem Tracker.kind_of_key_eq {t : Tracker} {a x : String} (h : t.key = a ++ ":" ++ x) :
    a = t.kind ∨ ∃ rest, a = t.kind ++ ":" ++ rest := by
  have hkind : ':' ∉ t.kind.toList := by cases t <;> simp [Tracker.kind]
  have hcolon : ∀ {b y}, t.kind ≠ b ++ ":" ++ y := by
    intro b y hb
    exact hkind (by simp [hb])
  by_cases hkey : t.key = t.kind
  · exact absurd (hkey.symm.trans h) hcolon
  · obtain ⟨id, hid⟩ : ∃ id, t.key = t.kind ++ ":" ++ id := by
      cases t with
      | user id | wallet id | ip id => exact ⟨id, rfl⟩
      | anonymous => exact absurd rfl hkey
    rcases append_colon_eq_iff.mp (hid.symm.trans h) with ⟨ha, _⟩ | ⟨rest, ha, _⟩ | ⟨rest, ha, _⟩
    · exact .inl ha.symm
    · exact .inr ⟨rest, ha⟩
    · exact absurd ha hcolon

/-! ## The records of a tracker under a policy -/

namespace Policy

variable {p q : Policy} {s t : Tracker}

/-- The name of `q` goes on from that of `p` with what the key of `s` starts with, and the rest of
that key is the key of `t`. -/
def Spills (p : Policy) (s : Tracker) (q : Policy) (t : Tracker) : Prop :=
  ∃ rest, q.name = p.name ++ ":" ++ rest ∧ s.key = rest ++ ":" ++ t.key

/-- Trackers under policies of which one has the records of the other. -/
def Shares (p : Policy) (s : Tracker) (q : Policy) (t : Tracker) : Prop :=
  (p.name = q.name ∧ s = t) ∨ p.Spills s q t ∨ q.Spills t p s

/-- The name of `q` goes on from that of `p` with the kind of a tracker, as a part of its own. -/
def Extends (q p : Policy) : Prop :=
  ∃ t : Tracker, q.name = p.name ++ ":" ++ t.kind ∨
    ∃ rest, q.name = p.name ++ ":" ++ t.kind ++ ":" ++ rest

theorem shares_iff : p.name ++ ":" ++ s.key = q.name ++ ":" ++ t.key ↔ p.Shares s q t := by
  rw [append_colon_eq_iff, Tracker.key_inj]
  rfl

theorem Spills.extends (h : p.Spills s q t) : q.Extends p := by
  obtain ⟨rest, hname, hkey⟩ := h
  refine ⟨s, ?_⟩
  rcases Tracker.kind_of_key_eq hkey with rfl | ⟨rest', rfl⟩
  · exact .inl hname
  · exact .inr ⟨rest', by simpa only [String.append_assoc] using hname⟩

/-- A name that goes on from another one has a colon. -/
theorem not_extends_of_plain (hq : ':' ∉ q.name.toList) : ¬ q.Extends p := by
  rintro ⟨t, hname | ⟨rest, hname⟩⟩ <;> exact hq (by simp [hname])

/-- **Names that do not go on from each other** with the kind of a tracker keep trackers apart. -/
theorem shares_iff_of_not_extends (hp : ¬ p.Extends q) (hq : ¬ q.Extends p) :
    p.Shares s q t ↔ p.name = q.name ∧ s = t := by
  refine ⟨?_, .inl⟩
  rintro (h | h | h)
  · exact h
  · exact absurd h.extends hq
  · exact absurd h.extends hp

/-- **Two trackers under two policies have a record in common if and only if they share**, and then
they have window, block and circuit in common.  It is so for the same tracker under the same policy;
besides, where the name of one policy goes on from that of the other with a colon and the first part
of a tracker's key.  Names of policies that do not go on with the kind of a tracker rule that out,
such as names without a colon. -/
theorem names_eq_iff (p q : Policy) (s t : Tracker) :
    (Limiter.windowName s p = Limiter.windowName t q ↔ p.Shares s q t) ∧
    (Limiter.blockName s p = Limiter.blockName t q ↔ p.Shares s q t) ∧
    (Key.scoped s p.name = Key.scoped t q.name ↔ p.Shares s q t) ∧
    (¬ p.Extends q → ¬ q.Extends p → (p.Shares s q t ↔ p.name = q.name ∧ s = t)) ∧
    (':' ∉ p.name.toList → ':' ∉ q.name.toList → ¬ p.Extends q ∧ ¬ q.Extends p) := by
  have hhead : ∀ head : String,
      head ++ p.name ++ ":" ++ s.key = head ++ q.name ++ ":" ++ t.key ↔ p.Shares s q t := by
    intro head
    rw [← shares_iff]
    simp only [String.append_assoc, String.ext_iff, String.toList_append, List.append_cancel_left_eq]
  refine ⟨hhead "rl:", hhead "rl-block:", ?_, shares_iff_of_not_extends,
    fun hp hq => ⟨not_extends_of_plain hp, not_extends_of_plain hq⟩⟩
  rw [Key.scoped, Key.scoped, Key.mk.injEq]
  exact hhead "cb@"

/-- A colon alone does no harm: what is counted for logins and for those of administrators is counted
apart, whoever the users are. -/
theorem names_ne_logins :
    let p : Policy := ⟨"login", 1000, 2, none, .fixedWindow⟩
    let q : Policy := ⟨"login:admin", 1000, 2, none, .fixedWindow⟩
    let s := Tracker.user "admin:user:bob"
    let t := Tracker.user "bob"
    (¬ p.Extends q ∧ ¬ q.Extends p) ∧ Limiter.windowName s p ≠ Limiter.windowName t q ∧
      Limiter.blockName s p ≠ Limiter.blockName t q ∧
      Key.scoped s p.name ≠ Key.scoped t q.name := by
  intro p q s t
  have hp : ¬ p.Extends q := not_extends_of_plain (by decide)
  have hq : ¬ q.Extends p := by
    -- no kind of trackers has the second letter of this one
    rintro ⟨t, hname | ⟨rest, hname⟩⟩ <;> have hletter := congrArg (fun s => s.toList[7]?) hname <;>
      cases t <;> simp [p, q, Tracker.kind] at hletter
  obtain ⟨hwindow, hblock, hcircuit, hshares, _⟩ := names_eq_iff p q s t
  have hapart : ¬ p.Shares s q t := by
    rw [hshares hp hq]
    exact fun h => absurd h.1 (by decide)
  exact ⟨⟨hp, hq⟩, mt hwindow.mp hapart, mt hblock.mp hapart, mt hcircuit.mp hapart⟩

end Policy

/-! ## Two users and one quota -/

/-- A plan with a policy for everybody and one for what belongs to Alice. -/
def Plan.forAlice : Plan :=
  { standard with
    policies := [⟨"api", 1000, 1, some 5000, .fixedWindow⟩,
      ⟨"api:user:alice", 1000, 1, some 5000, .fixedWindow⟩]
    scope := .perPolicy }

namespace Gate

/-- A user whose name starts with Alice's, and then Bob under the policy for what is Alice's. -/
def ofAlice : List Step :=
  [.at 0 (.request (.user "alice:user:bob") "/" "api"),
    .at 1 (.request (.user "bob") "/" "api:user:alice")]

/-- The two have the same window, the same block and the same circuit, and the first one takes the
quota of the second, who would be admitted otherwise. -/
theorem not_apart_alice :
    let g := Plan.forAlice.validGate
    let env := Env.start 0 (.empty none)
    (∃ env', Plan.forAlice.build.on env = (.ok g, env')) ∧
    (∃ p ∈ Plan.forAlice.policies, ∃ q ∈ Plan.forAlice.policies, ∃ s t : Tracker,
      p.name ≠ q.name ∧ s ≠ t ∧ Limiter.windowName s p = Limiter.windowName t q ∧
      Limiter.blockName s p = Limiter.blockName t q ∧
      Key.scoped s p.name = Key.scoped t q.name) ∧
    (g.traced ofAlice env).map (fun x => x.2.admits) = [true, false] ∧
    (g.traced (ofAlice.drop 1) env).map (fun x => x.2.admits) = [true] := by
  have hgate : Plan.forAlice.gate = .ok Plan.forAlice.validGate :=
    Plan.gate_of_valid (by decide) (by decide +kernel) (by decide) rfl rfl
  refine ⟨?_, ?_, by decide +kernel, by decide +kernel⟩
  · simp only [Plan.build, hgate]
    exact ⟨_, rfl⟩
  · exact ⟨_, List.mem_cons_self, _, List.mem_cons_of_mem _ List.mem_cons_self,
      .user "alice:user:bob", .user "bob", by decide, by decide, rfl, rfl, rfl⟩

end Gate

end Turnstile
