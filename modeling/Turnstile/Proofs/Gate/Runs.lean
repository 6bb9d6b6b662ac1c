import Turnstile.Gate.Action
import Turnstile.Proofs.Env.Healthy

/-!
# Steps and runs

A step sets the clock and the health of the store and performs an action.  A run is a list of steps;
its trace is the steps with their answers.

* `Gate.Step.Healthy`, `Gate.Step.at`: steps at which no call on the store fails.
* `Gate.traced`, `Gate.left`: the trace of a run, and the surroundings that it leaves.
* `Gate.Onward`: the clock does not fall.
* `Gate.filter_traced`: a run and the same run without some of its steps.
-/

set_option autoImplicit false

namespace Turnstile.Gate

/-! ## Steps -/

/-- A step at which no call on the store fails. -/
structure Step.Healthy (s : Step) : Prop where
  outage_eq : s.outage = false
  faults_eq : s.faults = fun _ => none

/-- An action at an instant at which no call on the store fails. -/
def Step.at (now : UInt64) (action : Action) : Step := ⟨now, false, fun _ => none, action⟩

theorem Step.healthy_at (now : UInt64) (action : Action) : (Step.at now action).Healthy := ⟨rfl, rfl⟩

variable {g : Gate} {env : Env} {s : Step} {run : List Step}

theorem Step.healthy_env (hs : s.Healthy) (h : env.Healthy) : (s.env env).Healthy :=
  ⟨hs.faults_eq, hs.outage_eq, h.ownClock_eq⟩

@[simp] theorem Step.now_env (s : Step) (env : Env) : (s.env env).now = s.now := rfl

@[simp] theorem Step.slot_env (s : Step) (env : Env) (key : String) :
    (s.env env).slot key = env.slot key := rfl

theorem on_take (g : Gate) (s : Step) (env : Env) :
    (g.take s).on env = (g.perform s.action).on (s.env env) := rfl

/-- **Only a request is answered by a decision.** -/
theorem request_of_decision {a : Action} {d : Decision}
    (h : ((g.perform a).on env).1 = .decision d) : ∃ t path policy, a = .request t path policy := by
  cases a with
  | request t path policy => exact ⟨t, path, policy, rfl⟩
  | reportFor t policy succeeded | statusFor t policy =>
    simp only [perform, GateM.on_bind, GateM.on_pure, reportFor, statusFor, withPolicy,
      Gate.policy] at h
    cases hp : g.policies.get? policy <;> rw [hp] at h <;> cases h
  | _ => cases h

/-! ## Runs -/

/-- A run is its first step and the rest. -/
theorem on_replay_cons (g : Gate) (s : Step) (run : List Step) (env : Env) :
    (g.replay (s :: run)).on env =
      (((g.take s).on env).1 :: ((g.replay run).on ((g.take s).on env).2).1,
        ((g.replay run).on ((g.take s).on env).2).2) := rfl

/-- The clock does not fall in a run that starts from here. -/
def Onward (env : Env) (run : List Step) : Prop :=
  (env.now :: run.map Step.now).Pairwise (· ≤ ·)

theorem onward_cons (h : Onward env (s :: run)) :
    env.now ≤ s.now ∧ (s.now :: run.map Step.now).Pairwise (· ≤ ·) := by
  obtain ⟨hle, hrest⟩ := List.pairwise_cons.mp h
  exact ⟨hle s.now List.mem_cons_self, hrest⟩

/-- The steps of a run with their answers. -/
def traced (g : Gate) (run : List Step) (env : Env) : List (Step × Answer) :=
  run.zip ((g.replay run).on env).1

/-- What a run leaves. -/
def left (g : Gate) (run : List Step) (env : Env) : Env := ((g.replay run).on env).2

theorem traced_cons (g : Gate) (s : Step) (run : List Step) (env : Env) :
    g.traced (s :: run) env =
      (s, ((g.take s).on env).1) :: g.traced run ((g.take s).on env).2 := rfl

theorem left_cons (g : Gate) (s : Step) (run : List Step) (env : Env) :
    g.left (s :: run) env = g.left run ((g.take s).on env).2 := rfl

/-- What every step of a run satisfies together with its answer. -/
theorem forall_of_traced {P : Step → Prop}
    (h : ∀ x ∈ g.traced run env, P x.1) : ∀ s ∈ run, P s := by
  induction run generalizing env with
  | nil => nofun
  | cons s run ih =>
    rw [traced_cons] at h
    obtain ⟨hs, hrun⟩ := List.forall_mem_cons.mp h
    exact List.forall_mem_cons.mpr ⟨hs, ih hrun⟩

/-- What holds of every step and its answer, in any surroundings, holds of all steps of a run. -/
theorem forall_mem_traced {P : Step × Answer → Prop}
    (h : ∀ s env, P (s, ((g.take s).on env).1)) : ∀ x ∈ g.traced run env, P x := by
  induction run generalizing env with
  | nil => simp [traced]
  | cons s run ih =>
    rw [traced_cons]
    exact List.forall_mem_cons.mpr ⟨h s env, ih⟩

/-- The steps of a trace are those of the run. -/
theorem mem_of_mem_traced {x : Step × Answer} (h : x ∈ g.traced run env) : x.1 ∈ run :=
  (List.of_mem_zip h).1

/-! ## Runs with steps left out -/

/-- **A run and the same run without some of its steps.**  Let surroundings be related by what is
still to come.  If a step that is kept leaves them related, and so does a step that only one of the
runs takes, then they stay related; and the steps that are looked at, all of which are kept, are
answered alike as long as each of them is in related surroundings. -/
theorem filter_traced {keep : Step → Bool} (look : Step → Bool)
    {R : List Step → Env → Env → Prop}
    (hlook : ∀ s, look s = true → keep s = true)
    (hkeep : ∀ s run env env', R (s :: run) env env' → keep s = true →
      (look s = true → ((g.take s).on env').1 = ((g.take s).on env).1) ∧
        R run ((g.take s).on env).2 ((g.take s).on env').2)
    (hdrop : ∀ s run env env', R (s :: run) env env' → keep s = false →
      R run ((g.take s).on env).2 env')
    {env' : Env} (h : R run env env') :
    (g.traced (run.filter keep) env').filter (fun x => look x.1) =
        (g.traced run env).filter (fun x => look x.1) ∧
      R [] (g.left run env) (g.left (run.filter keep) env') := by
  induction run generalizing env env' with
  | nil => exact ⟨rfl, h⟩
  | cons s run ih =>
    rw [traced_cons, left_cons]
    cases hs : keep s with
    | false =>
      have hunseen : look s = false := by
        rw [← Bool.not_eq_true]
        intro hseen
        rw [hlook s hseen] at hs
        cases hs
      rw [List.filter_cons_of_neg (by simp [hs]), List.filter_cons_of_neg (by simp [hunseen])]
      exact ih (hdrop s run env env' h hs)
    | true =>
      obtain ⟨hanswer, hrest⟩ := hkeep s run env env' h hs
      obtain ⟨htraced, hleft⟩ := ih hrest
      rw [List.filter_cons_of_pos hs, traced_cons, left_cons]
      refine ⟨?_, hleft⟩
      rw [List.filter_cons, List.filter_cons, htraced]
      cases hseen : look s with
      | false => rfl
      | true => rw [hanswer hseen]

end Turnstile.Gate
