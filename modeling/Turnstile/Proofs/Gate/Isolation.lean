import Turnstile.Proofs.Gate.Pairs
import Turnstile.Proofs.Gate.Trackers

/-!
# Isolation

Names without colons keep trackers and policies apart, and what is shared decides no request.  So
what is answered about a tracker is what would be answered if nobody else were there, and where
every policy has its circuits the same is true of a tracker under a policy.

The latter has two limits.  A report on a tracker without a policy is about all of its policies.
And whoever asks whether some circuit of a tracker is open reads circuits up to the first open one:
that drops the records that have expired by then, while a clock that is set back brings those to
life again that have not been read.

* `Gate.isolated`: answers do not depend on what is asked about others.
* `Gate.not_isolated_setBack`: they can if the clock is set back.
-/

set_option autoImplicit false

namespace Turnstile

namespace Gate

/-- **Trackers and policies are isolated.**  Let a gate be built, of whose policies none has a colon
in its name, and start it on an empty store that does not fail.  In every run, however the clock
moves:

* if steps are left out, but none that is about a tracker, then what is answered about that tracker
  stays the same;
* let every policy have its circuits, let nobody report on the tracker alone, and let the clock not
  be set back behind a question for all circuits of the tracker when it is asked about under a
  policy.  If requests and reports are left out, but none that is about the tracker under that
  policy, then what is answered about the two stays the same. -/
theorem isolated (pl : Plan) (g : Gate) (built built' : Env)
    (hbuild : pl.build.on built = (.ok g, built')) (hplain : ∀ p ∈ pl.policies, ':' ∉ p.name.toList)
    (start : UInt64) (run : List Step) (hhealthy : ∀ s ∈ run, s.Healthy) :
    let env := Env.start start (.empty none)
    (∀ (t : Tracker) (keep : Step → Bool),
      (∀ s : Step, s.action.tracker? = some t → keep s = true) →
      (g.traced (run.filter keep) env).filter (fun x => x.1.action.tracker? = some t) =
        (g.traced run env).filter fun x => x.1.action.tracker? = some t) ∧
    (pl.scope = .perPolicy → ∀ t : Tracker, ∀ p ∈ pl.policies,
      (∀ s ∈ run, ∀ succeeded, s.action ≠ .report t succeeded) →
      (run.Pairwise fun s s' =>
        s.action = .anyOpen t → s'.action.pair? = some (t, p.name) → s.now ≤ s'.now) →
      ∀ keep : Step → Bool,
      (∀ s : Step, keep s = false → ∃ x, s.action.fed? = some x ∧ x ≠ (t, p.name)) →
      (g.traced (run.filter keep) env).filter (fun x => x.1.action.pair? = some (t, p.name)) =
        (g.traced run env).filter fun x => x.1.action.pair? = some (t, p.name)) := by
  intro env
  have hg := Plan.built_of_build hbuild
  refine ⟨fun t keep hkeep => ?_, fun hscope t p hp hreport horder keep hkeep => ?_⟩
  · have hsound := g.monitor.sound_start start
    exact traced_of_tracker hg hplain hhealthy hkeep ⟨hsound, hsound, fun _ _ => rfl⟩
  · have hstart : g.Unreported t env := ⟨Env.healthy_start start, Env.slot_start start _⟩
    exact traced_of_pair hg hplain hp hscope ⟨hhealthy, hreport, horder⟩ hkeep (.refl hstart)

end Gate

/-- A plan with two policies, each of which has its circuits. -/
def Plan.searchAndLogin : Plan :=
  { standard with
    policies :=
      [{ Policy.twoPerSecond .fixedWindow with name := "search" }, .twoPerSecond .fixedWindow]
    circuit := ⟨1, 1, .ofMillis 1000⟩
    scope := .perPolicy }

theorem Plan.build_searchAndLogin (env : Env) :
    ∃ env', searchAndLogin.build.on env = (.ok searchAndLogin.validGate, env') := by
  have hgate : searchAndLogin.gate = .ok searchAndLogin.validGate :=
    gate_of_valid (by decide) (by decide +kernel) (by decide) rfl rfl
  simp only [build, hgate]
  exact ⟨_, rfl⟩

theorem Plan.plain_searchAndLogin : ∀ p ∈ searchAndLogin.policies, ':' ∉ p.name.toList := by
  decide

namespace Gate

/-- Alice between Bob's requests and her own under another policy. -/
def amongOthers : List Step :=
  [.at 0 (.request (.user "alice") "/" "login"), .at 1 (.request (.user "bob") "/" "login"),
    .at 2 (.reportFor (.user "alice") "search" false),
    .at 3 (.request (.user "alice") "/" "search"), .at 4 (.anyOpen (.user "alice")),
    .at 5 (.request (.user "alice") "/" "login"), .at 6 (.stats (.user "alice")),
    .at 7 (.statusFor (.user "alice") "login")]

/-- Bob takes nothing from Alice, and her failed search nothing from her requests under the other
policy. -/
theorem isolated_amongOthers :
    let g := Plan.searchAndLogin.validGate
    let env := Env.start 0 (.empty none)
    (∃ env', Plan.searchAndLogin.build.on env = (.ok g, env')) ∧
    (∀ p ∈ Plan.searchAndLogin.policies, ':' ∉ p.name.toList) ∧ (∀ s ∈ amongOthers, s.Healthy) ∧
    ((g.traced amongOthers env).filter fun x => x.1.action.tracker? = some (.user "alice")).map
      (fun x => x.2.admits) = [true, false, false, false, true, false, false] ∧
    ((g.traced amongOthers env).filter fun x =>
      x.1.action.pair? = some (.user "alice", "login")).map (fun x => x.2.admits) =
        [true, true, false] := by
  intro g env
  obtain ⟨env', hbuild⟩ := Plan.build_searchAndLogin env
  have hhealthy : ∀ s ∈ amongOthers, s.Healthy := by simp [amongOthers, Step.healthy_at]
  obtain ⟨htracker, hpair⟩ := isolated _ g env env' hbuild Plan.plain_searchAndLogin 0 amongOthers
    hhealthy
  have halice := htracker (.user "alice") (fun s => s.action.tracker? = some (.user "alice"))
    fun s hs => decide_eq_true hs
  have hlogin := hpair rfl (.user "alice") (.twoPerSecond .fixedWindow) (by decide)
    (by simp [amongOthers, Step.at]) (by decide)
    (fun s => s.action.fed?.all fun x => x = (.user "alice", "login")) fun s hs => by
      cases hfed : s.action.fed? with
      | none => simp [hfed] at hs
      | some x => exact ⟨x, rfl, by simpa [hfed, Policy.twoPerSecond] using hs⟩
  refine ⟨⟨env', hbuild⟩, Plan.plain_searchAndLogin, hhealthy, ?_, ?_⟩
  · rw [← halice]
    decide +kernel
  · have hname : (Policy.twoPerSecond .fixedWindow).name = "login" := rfl
    rw [hname] at hlogin
    rw [← hlogin]
    decide +kernel

/-- The last step is at an earlier instant than the one before it. -/
def setBack : List Step :=
  [.at 0 (.reportFor (.user "alice") "login" false),
    .at 1500 (.reportFor (.user "alice") "search" false),
    .at 2500 (.anyOpen (.user "alice")), .at 500 (.statusFor (.user "alice") "login")]

/-- Whether the record of the circuit that has expired at 2500 is dropped then depends on the report
about another policy; at 500, to which the clock is set back, it has not expired. -/
theorem not_isolated_setBack :
    let g := Plan.searchAndLogin.validGate
    let env := Env.start 0 (.empty none)
    let about (x : Step × Answer) : Bool := x.1.action.pair? = some (.user "alice", "login")
    let keep (s : Step) : Bool := s.action.fed?.all fun x => x = (.user "alice", "login")
    (∃ env', Plan.searchAndLogin.build.on env = (.ok g, env')) ∧
    (∀ p ∈ Plan.searchAndLogin.policies, ':' ∉ p.name.toList) ∧ (∀ s ∈ setBack, s.Healthy) ∧
    (∀ s ∈ setBack, ∀ t succeeded, s.action ≠ .report t succeeded) ∧
    (g.traced (setBack.filter keep) env).filter about ≠ (g.traced setBack env).filter about := by
  intro g env about keep
  refine ⟨Plan.build_searchAndLogin env, Plan.plain_searchAndLogin,
    by simp [setBack, Step.healthy_at], by simp [setBack, Step.at], fun heq => ?_⟩
  have hanswers : ((g.traced (setBack.filter keep) env).filter about).map Prod.snd ≠
      ((g.traced setBack env).filter about).map Prod.snd := by decide +kernel
  exact hanswers (congrArg _ heq)

end Gate

end Turnstile
