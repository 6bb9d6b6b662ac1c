import Turnstile.Proofs.Env.Frame
import Turnstile.Shelf

/-!
# What operations keep

What holds of the surroundings before an operation on the store holds of them after it, whether it
succeeds or fails, if that is true of its pieces.  A piece may rely on what the pieces before it have
answered.

* `StoreM.Keeps`: an operation keeps something, and answers with a property.
* `StoreM.keeps_pure`, `StoreM.keeps_bind`: operations one after the other.
* `Shelf.metrics_load`, `Shelf.metrics_save`, `Shelf.metrics_remove`: records are not counted.
-/

set_option autoImplicit false

namespace Turnstile

variable {α β : Type}

/-- What holds of the surroundings is kept by an operation, and its answers have a property. -/
def StoreM.Keeps (J : Env → Prop) (P : α → Prop) (x : StoreM α) : Prop :=
  ∀ env, J env → J (x.on env).2 ∧ ∀ a, (x.on env).1 = .ok a → P a

namespace StoreM

variable {J : Env → Prop} {P : α → Prop} {R : β → Prop}

theorem keeps_pure {a : α} (ha : P a) : (pure a : StoreM α).Keeps J P := by
  intro env henv
  refine ⟨henv, fun b hb => ?_⟩
  cases hb
  exact ha

theorem keeps_bind {x : StoreM α} {f : α → StoreM β} (hx : x.Keeps J P)
    (hf : ∀ a, P a → (f a).Keeps J R) : (x >>= f).Keeps J R := by
  intro env henv
  obtain ⟨hleft, hanswer⟩ := hx env henv
  rw [on_bind]
  rcases hr : x.on env with ⟨e | a, env₁⟩
  · rw [hr] at hleft
    exact ⟨hleft, nofun⟩
  · rw [hr] at hleft hanswer
    exact hf a (hanswer a rfl) env₁ hleft

theorem metrics_call (op : UInt64 → Store → Except StoreError α × Store)
    (record : Except StoreError α → Call) (env : Env) :
    ((call op record).on env).2.metrics = env.metrics := by
  rw [on_call]
  split <;> rfl

end StoreM

namespace Shelf

open StoreM

variable [Binary α] (s : Shelf) (name : String) (env : Env)

theorem metrics_load : ((s.load name : StoreM (Option α)).on env).2.metrics = env.metrics := by
  have hcall {β : Type} (op : UInt64 → Store → Except StoreError β × Store)
      (record : Except StoreError β → Call) :
      (call op record).Keeps (·.metrics = env.metrics) fun _ => True :=
    fun env₁ henv => ⟨(metrics_call op record env₁).trans henv, fun _ _ => trivial⟩
  suffices h : (s.load name : StoreM (Option α)).Keeps (·.metrics = env.metrics) fun _ => True from
    (h env rfl).1
  unfold load
  refine keeps_bind (hcall _ _) fun v _ => ?_
  split
  · exact keeps_pure trivial
  · split
    · exact keeps_pure trivial
    · refine keeps_bind (P := fun _ => True) (fun env₁ henv => ⟨henv, fun _ _ => trivial⟩) fun _ _ =>
        keeps_bind (hcall _ _) fun _ _ => keeps_pure trivial

theorem metrics_save (a : α) (ttl : Option Duration) :
    ((s.save name a ttl).on env).2.metrics = env.metrics :=
  metrics_call _ _ env

theorem metrics_remove : ((s.remove name).on env).2.metrics = env.metrics := metrics_call _ _ env

end Shelf

end Turnstile
