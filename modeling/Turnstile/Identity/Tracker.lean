import Turnstile.Identity.Address.Printer

/-!
# Trackers

A tracker is whom a request is counted against: a user, a wallet, a client address, or nobody in
particular.  What is known of a request decides: the user before the wallet before the address, and
blank values count as unknown.

* `resolve`: the tracker of a request.
* `key_inj`: trackers with the same key are the same tracker.
-/

set_option autoImplicit false

namespace Turnstile

/-- Whom requests are counted against.  The texts are in their normal forms: see `ofUser`,
`ofWallet` and `ofIp`. -/
inductive Tracker where
  /-- A user who has signed in. -/
  | user (id : String)
  /-- A wallet or account. -/
  | wallet (address : String)
  /-- A client address. -/
  | ip (address : String)
  /-- All requests without an identity. -/
  | anonymous
  deriving DecidableEq, Repr

namespace Tracker

/-- The tracker of a user: blanks around the id do not count. -/
def ofUser (id : String) : Tracker := .user (Text.trimmed id)

/-- The tracker of a wallet: blanks around the address and the size of its letters do not count. -/
def ofWallet (address : String) : Tracker := .wallet (Text.lowered (Text.trimmed address))

/-- The tracker of a client address, in its one form. -/
def ofIp (raw : String) : Tracker := .ip (Address.canonical raw)

/-- A value without the blanks around it, if anything is left. -/
def known (value : Option String) : Option String :=
  (value.map Text.trimmed).filter fun v => !v.isEmpty

/-- The first entry of a list with commas between its entries. -/
def firstEntry (s : String) : String := String.ofList (s.toList.takeWhile (· ≠ ','))

/-- The tracker of a request by what is known of it.  The address may be a list, of which the first
entry counts. -/
def resolve (user wallet clientIp : Option String) : Tracker :=
  match known user, known wallet, known (clientIp.map firstEntry) with
  | some u, _, _ => ofUser u
  | none, some w, _ => ofWallet w
  | none, none, some a => ofIp a
  | none, none, none => .anonymous

def kind : Tracker → String
  | .user _ => "user"
  | .wallet _ => "wallet"
  | .ip _ => "ip"
  | .anonymous => "anonymous"

/-- The text that names a tracker in keys and logs. -/
def key : Tracker → String
  | .user id => "user:" ++ id
  | .wallet address => "wallet:" ++ address
  | .ip address => "ip:" ++ address
  | .anonymous => "anonymous"

/-- Trackers with the same key are the same tracker. -/
theorem key_inj {s t : Tracker} : s.key = t.key ↔ s = t := by
  constructor
  · intro h
    cases s <;> cases t <;> simp_all [key, String.ext_iff, String.toList_append]
  · rintro rfl
    rfl

end Tracker

end Turnstile
