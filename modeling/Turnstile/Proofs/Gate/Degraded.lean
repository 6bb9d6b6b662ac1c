import Turnstile.Proofs.Env.Noted
import Turnstile.Proofs.Gate.Coherence

/-!
# Decisions without the store

To decide on a request a gate reads circuits and then, unless one of them refuses, the quota.  A
circuit whose record cannot be read or written counts as closed.  Where the quota cannot be counted
the request is admitted, and only that is told to the caller: a decision is marked as degraded if a
call of the limiter has failed, whatever became of the calls on circuits.

* `Limiter.tryCheck_undegraded`: what the limiter reads off the store is not marked.
* `Limiter.check_degraded_iff`: what the limiter admits and marks.
* `Gate.request_degraded_iff`: which decisions are marked.
* `Gate.unmarked_at_failedCircuit`: one that is not, although a circuit could not be read.
-/

set_option autoImplicit false

namespace Turnstile

open Circuit (Key)

/-! ## The limiter -/

namespace Limiter

variable {l : Limiter} {t : Tracker} {p : Policy} {env env' : Env}

/-- What the limiter reads off the store is not marked as degraded. -/
theorem tryCheck_undegraded {o : Outcome} (h : (l.tryCheck t p).on env = (.ok o, env')) :
    o.degraded = false := by
  refine StoreM.answers_bind (P := fun o : Outcome => o.degraded = false)
    (StoreM.answers_true _) ?_ env env' o h
  refine fun now _ => StoreM.answers_bind (StoreM.answers_true _) fun b _ => ?_
  cases b with
  | some b => exact StoreM.answers_pure rfl
  | none =>
    refine StoreM.answers_bind (StoreM.answers_true _) fun v _ => ?_
    split
    · exact StoreM.answers_pure rfl
    · refine StoreM.answers_bind (Q := fun o : Outcome => o.degraded = false) ?_ fun o ho =>
        StoreM.answers_bind (StoreM.answers_true _) fun _ _ => StoreM.answers_pure ho
      unfold penalise
      split
      · exact StoreM.answers_pure rfl
      · exact StoreM.answers_bind (StoreM.answers_true _) fun _ _ => StoreM.answers_pure rfl

/-- **The limiter admits a request and marks it if one of its calls fails, and only then.** -/
theorem check_degraded_iff (l : Limiter) (t : Tracker) (p : Policy) (env : Env) :
    ((l.check t p).on env).1.allowed = true ∧ ((l.check t p).on env).1.degraded = true ↔
      (l.check t p).met env ≠ [] := by
  have huses : (l.tryCheck t p).Uses fun _ => True := uses_tryCheck trivial trivial
  have hcalls : ((l.check t p).on env).2.calls = ((l.tryCheck t p).on env).2.calls := by
    simp only [check, GateM.on_bind, GateM.on_attempt]
    rcases (l.tryCheck t p).on env with ⟨e | o, env'⟩ <;> rfl
  rw [huses.met_of_calls hcalls]
  simp only [check, GateM.on_bind, GateM.on_attempt]
  rcases hr : (l.tryCheck t p).on env with ⟨e | o, env'⟩
  · exact iff_of_true ⟨rfl, rfl⟩ (List.cons_ne_nil e [])
  · refine iff_of_false ?_ fun h => h rfl
    rintro ⟨_, hdegraded⟩
    rw [GateM.on_pure, tryCheck_undegraded hr] at hdegraded
    cases hdegraded

end Limiter

/-! ## Requests -/

namespace Gate

variable {g : Gate} {t : Tracker} {p : Policy} {env env' : Env}

/-- The circuit that refuses a request, if one does.  Circuits are asked one after the other. -/
def refuser (g : Gate) (t : Tracker) (p : Policy) : GateM (Option Key) :=
  firstOpen g.breaker (g.guards t p)

theorem judge_of_refused (path : String) {key : Key}
    (h : (g.refuser t p).on env = (some key, env')) :
    (g.judge t path p).on env = (g.refuse t path p key).on env' := by
  unfold refuser at h
  simp only [judge, GateM.on_bind, h]

/-- A request that no circuit refuses gets what the limiter says. -/
theorem judge_of_passed (path : String) (h : (g.refuser t p).on env = (none, env')) :
    ((g.judge t path p).on env).1 = ruling p ((g.limiter.check t p).on env').1 := by
  unfold refuser at h
  simp only [judge, GateM.on_bind, h, GateM.on_pure]

/-- **Only the limiter's failures are told to the caller.**  Let a gate be built.  Whatever the
store has under its keys, whichever calls on it fail and whether or not it is away, a request under
a policy of the plan gets a decision, and

* if a circuit refuses the request, its record has been read and shuts callers out, and the decision
  says so;
* otherwise the request is admitted and marked as degraded if a call of the limiter has failed, and
  only then;
* so that a call made to decide has failed is told to the caller by an admission marked as degraded,
  unless only calls on circuits have failed. -/
theorem request_degraded_iff (pl : Plan) (g : Gate) (built built' : Env)
    (hbuild : pl.build.on built = (.ok g, built')) (t : Tracker) (path : String) (p : Policy)
    (hp : p ∈ pl.policies) (env : Env) :
    ∃ d env', (g.request t path p.name).on env = (.ok d, env') ∧
      match (g.refuser t p).on env with
      | (some key, env₁) => key ∈ g.guards t p ∧ g.breaker.Shuts key env₁ ∧
          d.circuitOpen = true ∧ d.allowed = false ∧ d.degraded = false
      | (none, env₁) => d.circuitOpen = false ∧
          (d.allowed = true ∧ d.degraded = true ↔ (g.limiter.check t p).met env₁ ≠ []) ∧
          (((g.refuser t p).met env ++ (g.limiter.check t p).met env₁ ≠ [] →
              d.allowed = true ∧ d.degraded = true) ↔
            (g.refuser t p).met env = [] ∨ (g.limiter.check t p).met env₁ ≠ []) := by
  have hg := Plan.built_of_build hbuild
  refine ⟨((g.judge t path p).on env).1, ((g.judge t path p).on env).2, ?_, ?_⟩
  · simp only [request, withPolicy, hg.policy_of_mem hp, GateM.on_bind, GateM.on_pure]
  · rcases hrefuser : (g.refuser t p).on env with ⟨_ | key, env₁⟩
    · have hmarked : (ruling p ((g.limiter.check t p).on env₁).1).allowed = true ∧
          (ruling p ((g.limiter.check t p).on env₁).1).degraded = true ↔
          (g.limiter.check t p).met env₁ ≠ [] := g.limiter.check_degraded_iff t p env₁
      dsimp only
      rw [judge_of_passed path hrefuser, hmarked]
      refine ⟨rfl, Iff.rfl, ?_⟩
      cases (g.refuser t p).met env <;> simp
    · obtain ⟨hmem, hshuts⟩ := shuts_of_firstOpen hrefuser
      dsimp only
      rw [judge_of_refused path hrefuser]
      exact ⟨hmem, hshuts, rfl, rfl, rfl⟩

/-- A request whose quota cannot be counted is admitted and marked: its third call fails, with which
the count is written. -/
theorem marked_at_failedCount :
    let g := (Plan.twoPerSecond .standard .perTracker).validGate
    let env := (Env.start 0 (.empty none)).restart fun n => if n = 2 then some .timeout else none
    (∃ env', (Plan.twoPerSecond .standard .perTracker).build.on env = (.ok g, env')) ∧
    Policy.twoPerSecond .fixedWindow ∈ (Plan.twoPerSecond .standard .perTracker).policies ∧
    ∃ d env', (g.request (.user "alice") "/" "login").on env = (.ok d, env') ∧
      d.allowed = true ∧ d.degraded = true := by
  intro g env
  obtain ⟨built', hbuild⟩ := Plan.build_twoPerSecond .standard rfl .perTracker env
  obtain ⟨d, env', hd, hdecided⟩ := request_degraded_iff _ g env built' hbuild (.user "alice") "/"
    (.twoPerSecond .fixedWindow) List.mem_cons_self env
  refine ⟨⟨built', hbuild⟩, List.mem_cons_self, d, env', hd, ?_⟩
  have hpassed : ((g.refuser (.user "alice") (.twoPerSecond .fixedWindow)).on env).1 = none := by
    decide +kernel
  have hmet : (g.limiter.check (.user "alice") (.twoPerSecond .fixedWindow)).met
      ((g.refuser (.user "alice") (.twoPerSecond .fixedWindow)).on env).2 = [.timeout] := by
    decide +kernel
  rcases hrefuser : (g.refuser (.user "alice") (.twoPerSecond .fixedWindow)).on env with
    ⟨_ | key, env₁⟩
  · rw [hrefuser] at hmet hdecided
    exact hdecided.2.1.mpr (by rw [hmet]; exact List.cons_ne_nil _ _)
  · rw [hrefuser] at hpassed
    cases hpassed

/-- **A circuit that could not be read leaves no mark.**  The first call of a request fails, with
which its one circuit is read.  All other calls succeed, and the request is admitted as it would be
by a store that never fails. -/
theorem unmarked_at_failedCircuit :
    let g := (Plan.twoPerSecond .standard .perTracker).validGate
    let env := (Env.start 0 (.empty none)).restart fun n => if n = 0 then some .timeout else none
    (∃ env', (Plan.twoPerSecond .standard .perTracker).build.on env = (.ok g, env')) ∧
      (g.refuser (.user "alice") (.twoPerSecond .fixedWindow)).met env = [.timeout] ∧
      ((g.request (.user "alice") "/" "login").on env).1.toOption =
        some ⟨true, "login", 2, 1, 1000, none, false, false⟩ :=
  ⟨Plan.build_twoPerSecond .standard rfl .perTracker _, by decide +kernel, by decide +kernel⟩

end Gate

end Turnstile
