import CardIndex.CommandLine.Arguments
import CardIndex.CommandLine.Report
import CardIndex.Dataset.Files
import CardIndex.Dataset.Findings
import CardIndex.Settings.Basic

namespace CardIndex.CommandLine.Validation

def usage : String := "Usage: validate-dataset [PATH]\n"

/-- The findings as a list under a heading. -/
def findingsText (findings : List Finding) : String :=
  "invalid:\n" ++ String.join (findings.map fun f => "- " ++ f.message ++ "\n")

variable {m : Type → Type} [Monad m] [Disk m]

def check (path : Path) : m Outcome := do
  match ← (readDataset (m := m) path).run with
  | .error e => pure ⟨1, "", Trouble.report ⟨some ("Failed to load " ++ path), e⟩⟩
  | .ok dataset =>
    if dataset.findings = [] then
      pure ⟨0, "valid (" ++ toString dataset.cards.length ++ " cards)\n", ""⟩
    else pure ⟨1, "", findingsText dataset.findings⟩

/-- The whole program. -/
def program (arguments : List String) : m Outcome :=
  match single none false arguments with
  | .help => pure ⟨0, usage, ""⟩
  | .version => pure ⟨0, "validate-dataset 0.1.0\n", ""⟩
  | .misuse => pure ⟨2, "", usage⟩
  | .perform path => check (path.getD Settings.defaultDataset)

end CardIndex.CommandLine.Validation
