import ParcelDesk.Proofs.Session.Order
import ParcelDesk.Session.Run

/-!
# The turns of a run

A run lets the clerk and the others take turns. The steps that are taken in it are one of the orders
in which those in the session may take steps.
-/

namespace ParcelDesk.Session

variable {serve : Server σ} {time : Instant}

/-- The one who takes the next step when it is not up to the clerk, and the session after it. -/
def nextOther (serve : Server σ) (time : Instant) (session : Session σ) :
    Option (Actor × Session σ) :=
  session.others.findSome? fun actor => (session.step serve time actor).map (actor, ·)

theorem othersStep_eq_map (serve : Server σ) (time : Instant) (session : Session σ) :
    session.othersStep serve time = (session.nextOther serve time).map Prod.snd := by
  rw [othersStep, nextOther, List.map_findSome?]
  congr 1
  funext actor
  rw [Function.comp_apply, Option.map_map]
  exact Option.map_id'.symm

theorem step_of_nextOther {session later : Session σ} {actor : Actor}
    (h : session.nextOther serve time = some (actor, later)) :
    session.step serve time actor = some later := by
  obtain ⟨other, -, hother⟩ := List.exists_of_findSome?_eq_some h
  obtain ⟨found, hstep, hpair⟩ := Option.map_eq_some_iff.1 hother
  cases hpair
  exact hstep

def goOnActors (serve : Server σ) (time : Instant) (stop : Session σ → Bool) :
    Nat → Bool → Session σ → List Actor
  | 0, _, _ => []
  | budget + 1, clerkFirst, session =>
      if stop session then []
      else if clerkFirst then
        match session.clerkStep with
        | some session => .clerk :: goOnActors serve time stop budget true session
        | none => goOnActors serve time stop budget false session
      else
        match session.nextOther serve time with
        | some (actor, session) => actor :: goOnActors serve time stop budget false session
        | none =>
            match session.clerkStep with
            | some session => .clerk :: goOnActors serve time stop budget true session
            | none => []

theorem follow_cons {session later : Session σ} {actor : Actor}
    (hstep : session.step serve time actor = some later) (moves : List (Actor × Instant)) :
    session.follow serve ((actor, time) :: moves) = later.follow serve moves := by
  rw [follow, hstep, Option.getD_some]

theorem follow_append (session : Session σ) (first second : List (Actor × Instant)) :
    session.follow serve (first ++ second) = (session.follow serve first).follow serve second := by
  induction first generalizing session with
  | nil => rfl
  | cons move first ih =>
      rw [List.cons_append, follow, follow, ih]

theorem goOn_eq_follow (stop : Session σ → Bool) (budget : Nat) (clerkFirst : Bool)
    (session : Session σ) :
    session.goOn serve time stop budget clerkFirst =
      session.follow serve
        ((session.goOnActors serve time stop budget clerkFirst).map (·, time)) := by
  induction budget generalizing clerkFirst session with
  | zero => rfl
  | succ budget ih =>
      have hturn {actor : Actor} {later : Session σ} (clerkFirst : Bool)
          (hstep : session.step serve time actor = some later) :
          later.goOn serve time stop budget clerkFirst =
            session.follow serve ((actor, time) ::
              (later.goOnActors serve time stop budget clerkFirst).map (·, time)) :=
        (ih clerkFirst later).trans (follow_cons hstep _).symm
      rw [goOn, goOnActors]
      cases stop session with
      | true => rfl
      | false =>
          cases clerkFirst with
          | true =>
              cases hclerk : session.clerkStep with
              | none => exact ih false session
              | some later => exact hturn true (show session.step serve time .clerk = _ from hclerk)
          | false =>
              rw [othersStep_eq_map]
              cases hnext : session.nextOther serve time with
              | some found => exact hturn false (step_of_nextOther hnext)
              | none =>
                  cases hclerk : session.clerkStep with
                  | none => rfl
                  | some later =>
                      exact hturn true (show session.step serve time .clerk = _ from hclerk)

def runActors (serve : Server σ) (time : Instant) (session : Session σ) : List Actor :=
  let handled := session.goOn serve time isHandled session.stepBound true
  session.goOnActors serve time isHandled session.stepBound true ++
    handled.goOnActors serve time (fun _ => false) session.stepBound true

/-- A run is one way in which those in the session may take steps. -/
theorem run_eq_follow (serve : Server σ) (time : Instant) (session : Session σ) :
    (session.run serve time).2 =
      session.follow serve ((session.runActors serve time).map (·, time)) := by
  rw [runActors, List.map_append, follow_append, ← goOn_eq_follow, ← goOn_eq_follow]
  rfl

end ParcelDesk.Session
