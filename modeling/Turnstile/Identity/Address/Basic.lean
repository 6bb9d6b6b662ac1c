/-!
# Network addresses

An address is four bytes or eight groups of sixteen bits.  The long addresses that stand for short
ones, five zero groups and a group of ones before the four bytes, are collapsed to the short form,
so that a client keeps one address whichever way it connects.

* `collapsed`: the short form of an address where it has one.
* `collapsed_collapsed`: collapsing twice is collapsing once.
-/

set_option autoImplicit false

namespace Turnstile

inductive Address where
  | v4 (a b c d : UInt8)
  | v6 (groups : Vector UInt16 8)
  deriving DecidableEq, Repr

namespace Address

/-- A long address from its groups, if there are eight of them. -/
def ofGroups? (groups : List UInt16) : Option Address :=
  if h : groups.length = 8 then some (.v6 ⟨groups.toArray, h⟩) else none

/-- The two bytes of a group, the upper one first. -/
def groupBytes (g : UInt16) : UInt8 × UInt8 := ((g >>> 8).toUInt8, g.toUInt8)

/-- The group of two bytes, the upper one first. -/
def groupOfBytes (hi lo : UInt8) : UInt16 := hi.toUInt16 <<< 8 ||| lo.toUInt16

/-- The groups before the four bytes of a short address in its long form. -/
def mappedHead : List UInt16 := [0, 0, 0, 0, 0, 0xFFFF]

/-- The short form of an address where it has one, and the address itself elsewhere. -/
def collapsed : Address → Address
  | .v4 a b c d => .v4 a b c d
  | .v6 g =>
    if g.toList.take 6 = mappedHead then
      .v4 (groupBytes g[6]).1 (groupBytes g[6]).2 (groupBytes g[7]).1 (groupBytes g[7]).2
    else .v6 g

@[simp] theorem collapsed_v4 (a b c d : UInt8) : collapsed (.v4 a b c d) = .v4 a b c d := rfl

@[simp] theorem collapsed_collapsed (x : Address) : x.collapsed.collapsed = x.collapsed := by
  cases x with
  | v4 => rfl
  | v6 g =>
    by_cases h : g.toList.take 6 = mappedHead
    · simp [collapsed, h]
    · simp [collapsed, h]

end Address

end Turnstile
