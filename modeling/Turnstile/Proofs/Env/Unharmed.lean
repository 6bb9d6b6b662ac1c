import Turnstile.Proofs.Env.Agree

/-!
# Failures on other keys

An operation sees only the keys that it uses, and of the failures it is going to meet only those on
these keys.  So two surroundings may have had any other calls between, however many, and those calls
may have failed in any way: as long as none of its own calls is made to fail, an operation answers
the same in both.

Which call is made to fail is a matter of its place among all calls, so that no call of an operation
was made to fail can be said only after the operation, by the calls on record.

* `Env.Unharmed`: no call on some keys was made to fail.
* `Env.Matches`: two surroundings that have the same under some keys.
* `GateM.Twins`: two operations that do the same to surroundings that match, unharmed.
* `GateM.Uses.twins`, `GateM.twins_of_unseen`: an operation on the keys is its own twin, and
  operations on other keys are twins of each other.
-/

set_option autoImplicit false

namespace Turnstile

variable {α β : Type} {K : String → Prop} {C : (Metrics → Metrics) → Prop}

/-! ## Records of calls -/

/-- The key that a call is on. -/
def Call.key : Call → String
  | .get key _ | .set key _ _ _ | .delete key _ => key

/-- Of the calls on record none on a key of `K` was made to fail. -/
def Env.Unharmed (K : String → Prop) (env : Env) : Prop :=
  ∀ (n : Nat) (c : Call), env.calls[n]? = some c → K c.key → env.faults n = none

/-- The second record of calls continues the first one, and the same calls are going to fail. -/
def Env.Continues (env env' : Env) : Prop :=
  env'.faults = env.faults ∧ ∃ later, env'.calls = env.calls ++ later

namespace Env

variable {env env' : Env}

theorem Continues.refl (env : Env) : env.Continues env := ⟨rfl, [], by simp⟩

theorem Continues.trans {env₁ : Env} (h : env.Continues env₁) (h₁ : env₁.Continues env') :
    env.Continues env' := by
  obtain ⟨hfaults, later, hcalls⟩ := h
  obtain ⟨hfaults', later', hcalls'⟩ := h₁
  exact ⟨hfaults'.trans hfaults, later ++ later', by rw [hcalls', hcalls, List.append_assoc]⟩

/-- What is unharmed in the end was so before. -/
theorem Unharmed.before (h : env'.Unharmed K) (hc : env.Continues env') : env.Unharmed K := by
  obtain ⟨hfaults, later, hcalls⟩ := hc
  intro n c hn hK
  rw [← hfaults]
  refine h n c ?_ hK
  have hlt : n < env.calls.length := (List.getElem?_eq_some_iff.mp hn).1
  rw [hcalls, List.getElem?_append_left hlt]
  exact hn

theorem continues_call (op : UInt64 → Store → Except StoreError α × Store)
    (record : Except StoreError α → Call) (env : Env) :
    env.Continues ((StoreM.call op record).on env).2 := by
  rw [StoreM.on_call]
  split
  · exact ⟨rfl, _, rfl⟩
  · exact ⟨rfl, _, rfl⟩

theorem steady_continues (K : String → Prop) (C : (Metrics → Metrics) → Prop) :
    Steady K C Continues where
  refl := .refl
  trans _ _ _ := .trans
  log _ := .refl
  count _ _ := .refl
  get _ _ := continues_call _ _
  set _ _ _ _ := continues_call _ _
  delete _ _ := continues_call _ _

/-! ## Surroundings that match -/

/-- Two surroundings at the same instant that have the same under the keys `K`. -/
structure Matches (K : String → Prop) (env env' : Env) : Prop where
  now_eq : env'.now = env.now
  store : env.store.Agree K env'.store

/-- What is done to other keys leaves surroundings matching. -/
theorem Matches.of_frames {L L' : String → Prop} {env₁ env₁' : Env} (h : env.Matches K env')
    (hf : Frame L env env₁) (hf' : Frame L' env' env₁') (hL : ∀ key, K key → ¬ L key)
    (hL' : ∀ key, K key → ¬ L' key) : env₁.Matches K env₁' := by
  refine ⟨by rw [hf.now_eq, hf'.now_eq, h.now_eq], ⟨?_, ?_, fun key hK => ?_⟩⟩
  · rw [hf.ownClock_eq, hf'.ownClock_eq, h.store.ownClock_eq]
  · rw [hf.outage_eq, hf'.outage_eq, h.store.outage_eq]
  · exact (hf'.slot_eq key (hL' key hK)).trans
      ((h.store.slot_eq key hK).trans (hf.slot_eq key (hL key hK)).symm)

end Env

namespace StoreM

variable {env env' : Env}

/-- A call that does the same to stores that agree, where it is not made to fail. -/
theorem matches_call {op : UInt64 → Store → Except StoreError α × Store}
    {record : Except StoreError α → Call} {key : String} (hK : K key)
    (hkey : ∀ answer, (record answer).key = key)
    (hop : ∀ now (s s' : Store), s.Agree K s' →
      (op now s').1 = (op now s).1 ∧ (op now s).2.Agree K (op now s').2)
    (h : env.Matches K env') (hu : ((call op record).on env).2.Unharmed K)
    (hu' : ((call op record).on env').2.Unharmed K) :
    ((call op record).on env').1 = ((call op record).on env).1 ∧
      ((call op record).on env).2.Matches K ((call op record).on env').2 := by
  -- the call stands at the end of the record, so the surroundings did not make it fail
  have hfault : ∀ {env : Env}, ((call op record).on env).2.Unharmed K →
      env.faults env.calls.length = none := by
    intro env hu
    rw [on_call] at hu
    cases hf : env.faults env.calls.length with
    | none => rfl
    | some e =>
      rw [hf] at hu
      have hnone := hu env.calls.length (record (.error e)) (by simp) (by rw [hkey]; exact hK)
      exact absurd (hf.symm.trans hnone) (by simp)
  obtain ⟨hanswer, hstore⟩ := hop env.now _ _ h.store
  rw [on_call, on_call, hfault hu, hfault hu', h.now_eq]
  exact ⟨hanswer, rfl, hstore⟩

/-- **An operation on the store sees the failures on its keys only.** -/
theorem Uses.alongside {x : StoreM α} (hx : x.Uses K) (h : env.Matches K env')
    (hu : (x.on env).2.Unharmed K) (hu' : (x.on env').2.Unharmed K) :
    (x.on env').1 = (x.on env).1 ∧ (x.on env).2.Matches K (x.on env').2 := by
  induction hx generalizing env env' with
  | pure a => exact ⟨rfl, h⟩
  | @bind _ _ x f _ hf ihx ihf =>
    have hfirst : ∀ env : Env, ((x >>= f).on env).2.Unharmed K → (x.on env).2.Unharmed K := by
      intro env hu
      rw [on_bind] at hu
      rcases hr : x.on env with ⟨e | a, env₁⟩ <;> rw [hr] at hu
      · exact hu
      · exact hu.before ((hf a).steady (Env.steady_continues K fun _ => False) env₁)
    obtain ⟨hanswer, hmatch⟩ := ihx h (hfirst env hu) (hfirst env' hu')
    rw [on_bind] at hu hu' ⊢
    rw [on_bind]
    rcases hr : x.on env with ⟨e | a, env₁⟩ <;> rcases hr' : x.on env' with ⟨e' | a', env₁'⟩ <;>
      rw [hr, hr'] at hanswer hmatch <;> cases hanswer
    · exact ⟨rfl, hmatch⟩
    · rw [hr] at hu
      rw [hr'] at hu'
      exact ihf a hmatch hu hu'
  | now => exact ⟨congrArg Except.ok h.now_eq, h⟩
  | log _ _ => exact ⟨rfl, h.now_eq, h.store⟩
  | alarm _ _ ih => exact ih ⟨h.now_eq, h.store⟩ hu hu'
  | get hK => exact matches_call hK (fun _ => rfl) (fun now _ _ hs => hs.get hK now) h hu hu'
  | set hK value ttl =>
    exact matches_call hK (fun _ => rfl) (fun now _ _ hs => hs.set now _ value (some ttl)) h hu hu'
  | delete hK => exact matches_call hK (fun _ => rfl) (fun _ _ _ hs => hs.delete _) h hu hu'

end StoreM

/-! ## Operations in two surroundings -/

namespace GateM

/-- Two operations that, unharmed, answer the same in surroundings that match and leave these
matching. -/
structure Twins (K : String → Prop) (x y : GateM α) : Prop where
  continues : x.Moves Env.Continues
  continues' : y.Moves Env.Continues
  alongside : ∀ env env', env.Matches K env' → (x.on env).2.Unharmed K → (y.on env').2.Unharmed K →
    (y.on env').1 = (x.on env).1 ∧ (x.on env).2.Matches K (y.on env').2

namespace Twins

variable {x y : GateM α} {f g : α → GateM β}

theorem bindOf {P : α → Prop} (hx : Twins K x y) (hP : ∀ env, P (x.on env).1)
    (hP' : ∀ env, P (y.on env).1) (hf : ∀ a, P a → Twins K (f a) (g a)) :
    Twins K (x >>= f) (y >>= g) where
  continues env := (hx.continues env).trans ((hf _ (hP env)).continues _)
  continues' env := (hx.continues' env).trans ((hf _ (hP' env)).continues' _)
  alongside env env' h hu hu' := by
    have hfirst := hu.before ((hf _ (hP env)).continues _)
    have hfirst' := hu'.before ((hf _ (hP' env')).continues' _)
    obtain ⟨hanswer, hmatch⟩ := hx.alongside env env' h hfirst hfirst'
    simp only [on_bind, hanswer] at hu' ⊢
    exact (hf _ (hP env)).alongside _ _ hmatch hu hu'

theorem bind (hx : Twins K x y) (hf : ∀ a, Twins K (f a) (g a)) : Twins K (x >>= f) (y >>= g) :=
  hx.bindOf (P := fun _ => True) (fun _ => trivial) (fun _ => trivial) fun a _ => hf a

/-- What keeps to the clock and the store. -/
theorem of_fixed {x : GateM α} (hx : ∀ env, (x.on env).2.store = env.store ∧
    (x.on env).2.now = env.now ∧ env.Continues (x.on env).2)
    (hanswer : ∀ env env' : Env, env'.now = env.now → (x.on env').1 = (x.on env).1) :
    Twins K x x where
  continues env := (hx env).2.2
  continues' env := (hx env).2.2
  alongside env env' h _ _ := by
    obtain ⟨hstore, hnow, _⟩ := hx env
    obtain ⟨hstore', hnow', _⟩ := hx env'
    refine ⟨hanswer env env' h.now_eq, by rw [hnow, hnow', h.now_eq], ?_⟩
    rw [hstore, hstore']
    exact h.store

end Twins

/-- **An operation of a gate sees the failures on its keys only.** -/
theorem Uses.twins {x : GateM α} (hx : x.Uses K C) : Twins K x x := by
  have hcount : ∀ f, Twins K (GateM.count f) (GateM.count f) := fun f =>
    .of_fixed (fun env => ⟨rfl, rfl, .refl env⟩) fun _ _ _ => rfl
  have hlog : ∀ e, Twins K (GateM.log e) (GateM.log e) := fun e =>
    .of_fixed (fun env => ⟨rfl, rfl, .refl env⟩) fun _ _ _ => rfl
  induction hx with
  | pure a => exact .of_fixed (fun env => ⟨rfl, rfl, .refl env⟩) fun _ _ _ => rfl
  | bindOf _ hP _ ihx ihf => exact ihx.bindOf hP hP ihf
  | now => exact .of_fixed (fun env => ⟨rfl, rfl, .refl env⟩) fun _ _ h => h
  | log _ _ => exact hlog _
  | count _ => exact hcount _
  | attempt hx _ _ _ herror ihok ihy =>
    refine .bind ⟨hx.steady (Env.steady_continues K C), hx.steady (Env.steady_continues K C),
      fun _ _ => hx.alongside⟩ fun r => ?_
    cases r with
    | ok a => exact ihok a
    | error e =>
      rw [herror]
      exact .bind (hcount _) fun _ => .bind (hlog _) fun _ => ihy e

/-- **Operations on other keys make no difference**, whatever they do there. -/
theorem twins_of_unseen {D : (Metrics → Metrics) → Prop} {x y : GateM Unit}
    (hx : x.Uses (fun key => ¬ K key) C) (hy : y.Uses (fun key => ¬ K key) D) : Twins K x y where
  continues := hx.steady (Env.steady_continues _ C)
  continues' := hy.steady (Env.steady_continues _ D)
  alongside env env' h _ _ := ⟨rfl, h.of_frames (hx.touches env) (hy.touches env')
    (fun _ => not_not_intro) fun _ => not_not_intro⟩

end GateM

end Turnstile
