import FortranSemantics.Settings
import FortranSemantics.Span

/-!
# Lints and findings

A lint is something the analysis noticed; the settings decide whether it is reported and how.
-/

namespace FortranSemantics

/-- Something noticed that does not stop the analysis. -/
structure Lint where
  name : String
  message : String
  span : Span
deriving DecidableEq, Repr

/-- How grave a finding is. -/
inductive Severity where
  | error | warning
deriving DecidableEq, Repr

/-- The word under which findings of a severity are reported. -/
def Severity.name : Severity → String
  | .error => "Semantic"
  | .warning => "Warning"

/-- A reported finding. -/
structure Finding where
  severity : Severity
  message : String
  span : Span
deriving DecidableEq, Repr

def Finding.text (finding : Finding) : String :=
  finding.severity.name ++ ": " ++ finding.message

def Lint.finding (settings : Settings) (lint : Lint) : Finding where
  severity := if settings.isError lint.name then .error else .warning
  message := lint.message ++ " [" ++ lint.name ++ "]"
  span := lint.span

/-- The findings that the settings make of some lints. -/
def Lint.classify (settings : Settings) (lints : List Lint) : List Finding :=
  (lints.filter fun lint => settings.reports lint.name).map (·.finding settings)

end FortranSemantics
