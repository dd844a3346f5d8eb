import CallGate.Principal.Basic

/-!
# Trials of a principal

A principal that may do what it was granted is tried out by grants, by questions, and by changes of
the locale in its profile.
-/

namespace CallGate.Rehearsal

/-- A step with a principal. -/
inductive PrincipalStep where
  /-- Grants operations on a resource. -/
  | grant (resource : String) (operations : List String)
  /-- Asks whether the principal may do what is required. -/
  | check (question : Requirement)
  /-- Sets the locale that a tag names. -/
  | setLocale (tag : String)
  /-- Reads the locale. -/
  | locale
  /-- Reads the name. -/
  | username
deriving DecidableEq

/-- What comes out of a step. -/
inductive PrincipalAnswer where
  /-- Nothing in particular. -/
  | done
  /-- The answer to a question. -/
  | answer (allowed : Bool)
  /-- Why a tag names no locale. -/
  | refused (cause : TagError)
  /-- The locale, if one was set. -/
  | locale (locale : Option Locale)
  /-- The name. -/
  | username (name : String)
deriving DecidableEq

/-- A principal that is being tried out. -/
structure PrincipalTrial where
  /-- The name that the principal has for people. -/
  username : String
  /-- What the principal was granted. -/
  grants : Grants
  /-- The locale in the profile. -/
  profile : Option Locale

namespace PrincipalTrial

/-- A principal without grants and with an empty profile. -/
def new (username : String) : PrincipalTrial := ⟨username, .empty, none⟩

/-- One step. A tag that names no locale changes nothing. -/
def perform (t : PrincipalTrial) : PrincipalStep → PrincipalAnswer × PrincipalTrial
  | .grant resource operations =>
    (.done, { t with grants := Grants.add t.grants resource operations })
  | .check question => (.answer (Grants.covers t.grants question), t)
  | .setLocale tag =>
    match Locale.parse tag with
    | .ok locale => (.done, { t with profile := some locale })
    | .error cause => (.refused cause, t)
  | .locale => (.locale t.profile, t)
  | .username => (.username t.username, t)

/-- The answers to steps that are taken one after the other. -/
def performAll (t : PrincipalTrial) : List PrincipalStep → List PrincipalAnswer
  | [] => []
  | step :: rest => (t.perform step).1 :: (t.perform step).2.performAll rest

end PrincipalTrial

end CallGate.Rehearsal
