import Turnstile.Proofs.Env.Frame

/-!
# Coupled operations

Two operations are coupled if in related surroundings they give related answers and leave the
surroundings related.  They need not be the same operation: one may have been given an instant, or
a record, and the other one what is related to it.  Operations that are put together from coupled
ones are coupled.

* `GateM.Coupled`, `StoreM.Coupled`: coupled operations; those on the store do not fail.
* `GateM.Coupled.bind`, `StoreM.Coupled.bind`: operations one after the other.
* `StoreM.Coupled.attempt`: what follows an operation on the store.
-/

set_option autoImplicit false

namespace Turnstile

variable {α β γ δ : Type} {Rel : Env → Env → Prop} {R : α → β → Prop} {S : γ → δ → Prop}

/-- In related surroundings two operations give related answers, and leave the surroundings
related. -/
def GateM.Coupled (Rel : Env → Env → Prop) (R : α → β → Prop) (x : GateM α) (y : GateM β) : Prop :=
  ∀ env env', Rel env env' → R (x.on env).1 (y.on env').1 ∧ Rel (x.on env).2 (y.on env').2

/-- In related surroundings two operations on the store succeed with related answers, and leave the
surroundings related. -/
def StoreM.Coupled (Rel : Env → Env → Prop) (R : α → β → Prop) (x : StoreM α) (y : StoreM β) : Prop :=
  ∀ env env', Rel env env' → ∃ a b env₁ env₁',
    x.on env = (.ok a, env₁) ∧ y.on env' = (.ok b, env₁') ∧ R a b ∧ Rel env₁ env₁'

namespace GateM.Coupled

theorem pure {a : α} {b : β} (h : R a b) : Coupled Rel R (pure a) (pure b) :=
  fun _ _ hrel => ⟨h, hrel⟩

theorem bind {x : GateM α} {y : GateM β} {f : α → GateM γ} {k : β → GateM δ}
    (hx : Coupled Rel R x y) (hf : ∀ a b, R a b → Coupled Rel S (f a) (k b)) :
    Coupled Rel S (x >>= f) (y >>= k) := by
  intro env env' hrel
  obtain ⟨hanswer, hrel₁⟩ := hx env env' hrel
  exact hf _ _ hanswer _ _ hrel₁

theorem mono {R' : α → β → Prop} {x : GateM α} {y : GateM β} (hx : Coupled Rel R x y)
    (hR : ∀ a b, R a b → R' a b) : Coupled Rel R' x y := fun env env' hrel =>
  ⟨hR _ _ (hx env env' hrel).1, (hx env env' hrel).2⟩

end GateM.Coupled

namespace StoreM.Coupled

theorem pure {a : α} {b : β} (h : R a b) : Coupled Rel R (pure a) (pure b) :=
  fun env env' hrel => ⟨a, b, env, env', rfl, rfl, h, hrel⟩

theorem bind {x : StoreM α} {y : StoreM β} {f : α → StoreM γ} {k : β → StoreM δ}
    (hx : Coupled Rel R x y) (hf : ∀ a b, R a b → Coupled Rel S (f a) (k b)) :
    Coupled Rel S (x >>= f) (y >>= k) := by
  intro env env' hrel
  obtain ⟨a, b, env₁, env₁', hon, hon', hanswer, hrel₁⟩ := hx env env' hrel
  rw [on_bind_of_ok hon, on_bind_of_ok hon']
  exact hf a b hanswer env₁ env₁' hrel₁

theorem lift {x : GateM α} {y : GateM β} (hx : GateM.Coupled Rel R x y) :
    Coupled Rel R (liftM x : StoreM α) (liftM y : StoreM β) := fun env env' hrel =>
  ⟨_, _, _, _, on_lift x env, on_lift y env', hx env env' hrel⟩

/-- What follows an operation that does not fail need only be coupled on its answers. -/
theorem attempt {x : StoreM α} {y : StoreM β} {f : Except StoreError α → GateM γ}
    {k : Except StoreError β → GateM δ} (hx : Coupled Rel R x y)
    (hf : ∀ a b, R a b → GateM.Coupled Rel S (f (.ok a)) (k (.ok b))) :
    GateM.Coupled Rel S (x.attempt >>= f) (y.attempt >>= k) := by
  intro env env' hrel
  obtain ⟨a, b, env₁, env₁', hon, hon', hanswer, hrel₁⟩ := hx env env' hrel
  rw [GateM.on_bind, GateM.on_bind, GateM.on_attempt, GateM.on_attempt, hon, hon']
  exact hf a b hanswer env₁ env₁' hrel₁

end StoreM.Coupled

end Turnstile
