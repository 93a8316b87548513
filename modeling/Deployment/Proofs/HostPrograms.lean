import Deployment.Host.Program
import Deployment.Proofs.Rendering

namespace Deployment.Host

open FileTree (Rooted)

namespace Utility

variable {working : Place} {files : FileTree} {effect : Effect} {name : String}
  {args : List String}

/-- Reading files leaves them as they are. -/
theorem files_cat (working : Place) (files : FileTree) (args : List String) :
    (cat working files args).files = files := by
  refine List.foldlRecOn (motive := fun effect : Effect => effect.files = files) args _ rfl ?_
  intro effect same arg _
  split
  · exact same
  · exact same
  · exact same
  · exact same

theorem rooted_copy (rooted : files.Rooted) (source target : String) :
    (copy working files source target).files.Rooted := by
  unfold copy
  simp only
  split
  · exact rooted
  · exact rooted
  · exact rooted
  · split
    · rename_i written
      exact rooted.writeAt written
    · exact rooted

theorem rooted_remove (rooted : files.Rooted) : (remove working files args).files.Rooted := by
  refine List.foldlRecOn (motive := fun effect : Effect => effect.files.Rooted) _ _ rooted ?_
  intro effect rooted path _
  split
  · split <;> exact rooted
  · split
    · split <;> exact rooted
    · split
      · exact rooted.removeTree _
      · exact rooted
    · exact rooted.removeTree _

theorem rooted_touch (rooted : files.Rooted) : (touch working files args).files.Rooted := by
  refine List.foldlRecOn (motive := fun effect : Effect => effect.files.Rooted) _ _ rooted ?_
  intro effect rooted path _
  split
  · exact rooted
  · split
    · exact rooted
    · split
      · rename_i written
        exact rooted.writeAt written
      · exact rooted

theorem files_printf (files : FileTree) (args : List String) : (printf files args).files = files := by
  cases args <;> rfl

/-- Whatever utility is run, every entry still stands in a directory. -/
theorem rooted_run? (rooted : files.Rooted) (found : run? working files name args = some effect) :
    effect.files.Rooted := by
  unfold run? at found
  split at found
  · cases found
    exact rooted
  · cases found
    exact rooted
  · cases found
    exact rooted
  · cases found
    exact rooted
  · cases found
    rwa [files_printf]
  · cases found
    rwa [files_cat]
  · split at found
    · cases found
      exact rooted_copy rooted _ _
    · cases found
      exact rooted
  · cases found
    exact rooted_remove rooted
  · cases found
    exact rooted_touch rooted
  · cases found
    exact rooted
  · cases found
    exact rooted
  · cases found

end Utility

namespace Script

variable {s after : Script} {sinks later : Sinks}

theorem rooted_deliver (rooted : s.files.Rooted) (sink : Sink) (octets : List UInt8) :
    (s.deliver sink octets).files.Rooted := by
  cases sink with
  | output => exact rooted
  | errors => exact rooted
  | file place =>
    unfold deliver
    simp only
    split
    · rename_i content executable found
      -- The file is there already, so the tree is as if it were written anew.
      have written : s.files.writeAt place (content ++ octets) =
          .ok (s.files.put place (.file (content ++ octets) executable)) := by
        rw [FileTree.writeAt, found]
      exact rooted.writeAt written
    · exact rooted

theorem rooted_redirect (rooted : s.files.Rooted) {r : Redirection}
    (done : s.redirect sinks r = .ok (after, later)) : after.files.Rooted := by
  cases r with
  | stream stream target =>
    cases done
    exact rooted
  | file stream append target =>
    unfold redirect at done
    simp only at done
    split at done
    · cases done
    · cases done
    · split at done
      · cases done
        exact rooted
      · split at done
        · rename_i written
          cases done
          exact rooted.writeAt written
        · cases done

theorem rooted_redirectAll {rs : List Redirection} (rooted : s.files.Rooted)
    (done : s.redirectAll sinks rs = .ok (after, later)) : after.files.Rooted := by
  induction rs generalizing s sinks with
  | nil =>
    cases done
    exact rooted
  | cons r rest ih =>
    obtain ⟨⟨middle, between⟩, first, others⟩ := Outcome.bind_eq_ok.mp done
    exact ih (rooted_redirect rooted first) others

/-- One command of a script, whether it ends the script or not. -/
theorem rooted_runCommand (rooted : s.files.Rooted) (sinks : Sinks) (line : Nat)
    (words : List String) : (s.runCommand sinks line words).1.files.Rooted := by
  unfold runCommand
  split
  · exact rooted
  · exact rooted
  · split
    · exact rooted
    · split <;> exact rooted
  · simp only
    split
    · split <;> exact rooted
    · exact rooted
  · simp only
    split
    · rename_i effect found
      apply rooted_deliver
      apply rooted_deliver
      split at found
      · cases found
        exact rooted
      · exact Utility.rooted_run? rooted found
    · exact rooted_deliver (s := { s with status := 127 }) rooted _ _

/-- A script is run command by command, each of them in the tree that the one before it left. -/
theorem rooted_runSteps {steps : List ScriptStep} (rooted : s.files.Rooted) :
    (s.runSteps steps).1.files.Rooted := by
  induction steps generalizing s with
  | nil => exact rooted
  | cons step rest ih =>
    rw [runSteps]
    split
    · split
      · exact ih rooted
      · rename_i redirected sinks done
        have kept := rooted_runCommand (rooted_redirectAll rooted done) sinks step.line
          (step.words.flatMap s.expand)
        split
        · rename_i ended
          rwa [ended] at kept
        · rename_i going
          rw [going] at kept
          exact ih kept
    · exact ih rooted

end Script

variable {working : Place} {files after : FileTree} {output : Output}

theorem rooted_runScript (rooted : files.Rooted) (name : String) (arguments : List String)
    (text : List Char) : (runScript working files name arguments text).2.Rooted := by
  unfold runScript
  split
  · exact rooted
  · exact Script.rooted_runSteps rooted

theorem rooted_runShell (working : Place) (rooted : files.Rooted) (args : List String) :
    (runShell working files args).2.Rooted := by
  unfold runShell
  split
  · exact rooted_runScript rooted _ _ _
  · exact rooted_runScript rooted _ _ _
  · split
    · exact rooted_runScript rooted _ _ _
    · exact rooted
  · exact rooted

theorem rooted_runNamed? (rooted : files.Rooted) {name : String} {args : List String}
    (ran : runNamed? working files name args = some (output, after)) : after.Rooted := by
  unfold runNamed? at ran
  split at ran
  · have kept := rooted_runShell working rooted args
    rwa [Option.some.inj ran] at kept
  · obtain ⟨effect, found, same⟩ := Option.map_eq_some_iff.mp ran
    cases same
    exact Utility.rooted_run? rooted found

theorem rooted_runFile (rooted : files.Rooted) {place : Place} {path : String} {args : List String}
    (ran : runFile working files place path args = .ok (output, after)) : after.Rooted := by
  unfold runFile at ran
  split at ran
  · split at ran
    · cases ran
    · split at ran
      · have kept := rooted_runShell working rooted (path :: args)
        rwa [Except.ok.inj ran] at kept
      · cases ran
  · cases ran
  · cases ran

theorem rooted_start (rooted : files.Rooted) {command : Command}
    (started : start working files command = .ok (output, after)) : after.Rooted := by
  unfold start at started
  split at started
  · cases started
  · obtain ⟨place, _, started⟩ := Outcome.bind_eq_ok.mp started
    split at started
    · rename_i found
      cases started
      obtain ⟨name, _, ran⟩ := Option.bind_eq_some_iff.mp found
      exact rooted_runNamed? rooted ran
    · exact rooted_runFile rooted started

/-- On the host every command keeps every entry in a directory. -/
theorem rooted_runOnHost (working : Place) (command : Command) (files : FileTree) (state : Unit)
    (rooted : files.Rooted) : (runOnHost working command files state).files.Rooted := by
  unfold runOnHost
  split
  · rename_i started
    exact rooted_start rooted started
  · exact rooted

end Deployment.Host

namespace Deployment.Renderer

open Host (Place FileTree)

/-- Rendering on the host needs nothing of the interpreter but that it is a program there. -/
theorem rooted_render_host (r : Renderer) {files : FileTree} (rooted : files.Rooted)
    (suffixes : List String) (source target : String) (context : EvaluationContext) :
    (r.render (Host.runOnHost r.working) suffixes source target context files ()).files.Rooted := by
  apply rooted_render rooted
  intro command files state rooted
  exact Host.rooted_runOnHost r.working command files state rooted

end Deployment.Renderer
