import Turnstile.Proofs.Env.Noted
import Turnstile.Proofs.Touches

/-!
# Circuits that shut a caller out

A breaker that turns a caller away has read the record of an open circuit whose timeout is not over.
The record stays in the store, so whoever looks at the status of the circuit afterwards reads it
again or meets a failure of the store.  Either way the instant that is announced has not passed.

* `Breaker.Shuts`: the record of a circuit shuts callers out.
* `Breaker.shuts_of_admits`: who is turned away was shut out.
* `Breaker.Shuts.le_nextProbe`: what the status of such a circuit announces.
-/

set_option autoImplicit false

namespace Turnstile

open Circuit (Key)

namespace Circuit

variable {c : Circuit} {t : Thresholds} {now : UInt64}

/-- Who is turned away finds an open circuit whose timeout is not over. -/
theorem fst_poll_eq_false_iff :
    (c.poll t now).1 = false ↔ c.state = .open ∧ c.rested t now = false := by
  unfold poll
  cases hs : c.state with
  | closed => simp
  | halfOpen => simp
  | «open» => cases hr : c.rested t now <;> simp

theorem snd_poll_of_fst_eq_false (h : (c.poll t now).1 = false) : (c.poll t now).2 = c := by
  obtain ⟨hs, hr⟩ := fst_poll_eq_false_iff.mp h
  simp [poll, hs, hr]

theorem fst_poll_fresh (t : Thresholds) (now : UInt64) : (fresh.poll t now).1 = true := rfl

/-- The probe that an open circuit announces is not over as long as the circuit shuts callers out.
One that does not know when it opened counts from zero, so neither is any other instant that the
timeout leads to. -/
theorem le_nextProbe (h : (c.poll t now).1 = false) (start : UInt64) :
    now ≤ (c.nextProbe t).getD (satAdd start t.timeout) := by
  obtain ⟨hs, hr⟩ := fst_poll_eq_false_iff.mp h
  simp only [rested, decide_eq_false_iff_not, UInt64.not_lt, UInt64.le_iff_toNat_le,
    toNat_satSub] at hr
  have := toNat_le_max now
  unfold nextProbe
  rw [hs]
  cases ho : c.openedAt with
  | none =>
    simp only [ho, Option.getD_none, UInt64.toNat_zero] at hr
    simp only [Option.map_none, Option.getD_none, UInt64.le_iff_toNat_le, toNat_satAdd]
    omega
  | some opened =>
    simp only [ho, Option.getD_some] at hr
    simp only [Option.map_some, Option.getD_some, UInt64.le_iff_toNat_le, toNat_satAdd]
    omega

end Circuit

namespace Breaker

variable {b : Breaker} {key : Key} {K : String → Prop} {env env' : Env}

/-- The record of a circuit shuts callers out. -/
def Shuts (b : Breaker) (key : Key) (env : Env) : Prop :=
  ∃ c, env.record Circuit b.shelf key.text = some c ∧ (c.poll b.thresholds env.now).1 = false

theorem Shuts.of_frame (h : b.Shuts key env) (hf : Env.Frame K env env')
    (hK : ¬ K (b.shelf.key key.text)) : b.Shuts key env' := by
  obtain ⟨c, hc, hpoll⟩ := h
  refine ⟨c, ?_, ?_⟩
  · rw [Env.record_of_frame hf hK, hc]
  · rw [hf.now_eq, hpoll]

/-! ## Reading a circuit -/

theorem load_ok {c : Circuit} (h : (b.load key).on env = (.ok c, env')) :
    c = (env.record Circuit b.shelf key.text).getD .fresh ∧
      env'.record Circuit b.shelf key.text = env.record Circuit b.shelf key.text := by
  obtain ⟨r, env₁, hload, hrest⟩ := StoreM.ok_of_on_bind h
  have hrecord := b.shelf.record_load (α := Circuit) key.text env
  rw [hload] at hrecord
  obtain rfl := (Shelf.load_ok hload).1
  cases hrest
  exact ⟨rfl, hrecord⟩

/-- What an answer of a circuit says about its record. -/
theorem tryAdmits_ok {through : Bool} (h : (b.tryAdmits key).on env = (.ok through, env')) :
    ∃ c env₁, (b.load key).on env = (.ok c, env₁) ∧
      through = (c.poll b.thresholds env₁.now).1 ∧
      ((c.poll b.thresholds env₁.now).2.state = c.state → env' = env₁) := by
  obtain ⟨c, env₁, hload, hrest⟩ := StoreM.ok_of_on_bind h
  refine ⟨c, env₁, hload, ?_⟩
  rw [StoreM.on_bind_of_ok (StoreM.on_now env₁)] at hrest
  dsimp only at hrest
  by_cases hstate : (c.poll b.thresholds env₁.now).2.state = c.state
  · rw [if_pos hstate] at hrest
    cases hrest
    exact ⟨rfl, fun _ => rfl⟩
  · rw [if_neg hstate] at hrest
    obtain ⟨_, env₂, _, hrest⟩ := StoreM.ok_of_on_bind hrest
    obtain ⟨_, env₃, _, hrest⟩ := StoreM.ok_of_on_bind hrest
    cases hrest
    exact ⟨rfl, fun h => absurd h hstate⟩

/-- **Whoever is turned away was shut out**, and still is. -/
theorem shuts_of_admits (h : (b.admits key).on env = (false, env')) : b.Shuts key env' := by
  unfold admits at h
  simp only [GateM.on_bind, GateM.on_attempt] at h
  rcases hr : (b.tryAdmits key).on env with ⟨e | through, env₁⟩
  · rw [hr] at h
    cases h
  · rw [hr] at h
    cases h
    obtain ⟨c, env₁, hload, hpoll, hsame⟩ := tryAdmits_ok hr
    have hstate : (c.poll b.thresholds env₁.now).2.state = c.state := by
      rw [Circuit.snd_poll_of_fst_eq_false hpoll.symm]
    rw [hsame hstate]
    obtain ⟨hc, hrecord⟩ := load_ok hload
    refine ⟨c, ?_, hpoll.symm⟩
    rw [hrecord]
    cases hr : env.record Circuit b.shelf key.text with
    | some c' => rw [hc, hr, Option.getD_some]
    | none =>
      -- a fresh circuit shuts nobody out
      rw [hr, Option.getD_none] at hc
      rw [hc, Circuit.fst_poll_fresh] at hpoll
      cases hpoll

/-- **What the status of a circuit that shuts callers out announces has not passed**, even when the
store fails and nothing is announced. -/
theorem Shuts.le_nextProbe (h : b.Shuts key env) :
    env.now ≤ ((b.status key).on env).1.nextProbe.getD (satAdd env.now b.thresholds.timeout) := by
  obtain ⟨c, hc, hpoll⟩ := h
  unfold status
  simp only [GateM.on_bind, GateM.on_attempt]
  rcases hl : (b.load key).on env with ⟨e | c', env₁⟩
  · exact le_satAdd env.now b.thresholds.timeout
  · obtain ⟨hc', _⟩ := load_ok hl
    rw [hc, Option.getD_some] at hc'
    rw [hc']
    exact Circuit.le_nextProbe hpoll env.now

end Breaker

end Turnstile
