/-!
# Refusals of the store

A call on the store can fail: the store is away, answers too late, or cannot handle the bytes.
-/

set_option autoImplicit false

namespace Turnstile

inductive StoreError where
  | unavailable (reason : String)
  | timeout
  | codec (reason : String)
  deriving DecidableEq, Repr

def StoreError.message : StoreError → String
  | .unavailable reason => "store unavailable: " ++ reason
  | .timeout => "store operation timed out"
  | .codec reason => "store codec error: " ++ reason

end Turnstile
