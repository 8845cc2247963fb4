import Bootscript.Proofs.Launcher.Evaluation

/-! The hint in the failure report. The outer quotes hand the report to `eval` as it is, in
every environment, and `eval` then expands the word with the hint in it once more. -/
namespace Bootscript.Launcher

def offer (l : Launcher) : Text := "      $ ".toList ++ l.hint

variable (l : Launcher) (distributable : Bool)

theorem getElem?_lines_failureReport :
    (l.lines distributable)[l.interpreters.length + 1]? = some (evalLine l.failureReport) := by
  simp [lines, statements]

theorem disjoint_offer : List.Disjoint ['"', '\\'] l.offer := by
  have excluded : ∀ c ∈ ['"', '\\'], c ∈ hintExcluded ∧ c ∉ "      $ ".toList := by
    simp [hintExcluded]
  intro c special inside
  rcases List.mem_append.1 inside with own | inside
  · exact (excluded c special).2 own
  · exact not_mem_of_isHint l.accepted_settings.2.2.2 (excluded c special).1 inside

/-- The dollar sign of the prompt starts no expansion, whatever the hint. -/
theorem hasExpansion_offer : Shell.hasExpansion l.offer = Shell.hasExpansion l.hint :=
  rfl

theorem failureReport_eq : l.failureReport = [
    "if [ $code -eq 253 ]; then".toList,
    "echo \"pysh: script $0 requires the ".toList ++ l.runtimeModule ++
      " package. Install it with:\" >&2;".toList,
    "echo \"".toList ++ l.offer ++ "\" >&2;".toList,
    "fi".toList] := by
  have status : "if [ $code -eq ".toList ++ statusText ++ " ]; then".toList =
      "if [ $code -eq 253 ]; then".toList := by decide
  have prompt : "echo \"      $ ".toList ++ l.hint = "echo \"".toList ++ l.offer := by
    have cut : "echo \"      $ ".toList = "echo \"".toList ++ "      $ ".toList := by decide
    rw [cut, List.append_assoc]
    rfl
  rw [failureReport, status, prompt]

/-- In every environment `eval` gets the failure report with the hint in it. It reads the
quoted word there as the prompt and the hint, in every environment, just if no expansion
starts in the hint. -/
theorem expand_offer :
    (∃ line, (l.lines distributable)[l.interpreters.length + 1]? = some line ∧
      ∀ env, Shell.expandWords? env line = some ["eval".toList,
        "if [ $code -eq 253 ]; then".toList,
        "echo \"pysh: script $0 requires the ".toList ++ l.runtimeModule ++
          " package. Install it with:\" >&2;".toList,
        "echo \"".toList ++ l.offer ++ "\" >&2;".toList,
        "fi".toList]) ∧
    ∀ rest, (∀ env, Shell.expand? env (l.offer ++ '"' :: rest) = some (l.offer, rest)) ↔
      Shell.hasExpansion l.hint = false := by
  constructor
  · refine ⟨evalLine l.failureReport, l.getElem?_lines_failureReport distributable, fun env => ?_⟩
    rw [expandWords?_evalLine env fun word => l.disjoint_of_mem_failureReport, failureReport_eq]
  · intro rest
    rw [← hasExpansion_offer]
    exact Shell.expand?_eq_self_iff l.disjoint_offer rest

/-- An accepted hint in whose place the report shows what a command prints. -/
theorem expand_offer_substitution : ∃ l : Launcher, l.hint = "$(id)".toList ∧
    Shell.expand? (fun _ => some "uid=0".toList) (l.offer ++ '"' :: " >&2; fi".toList) =
      some ("      $ uid=0".toList, " >&2; fi".toList) := by
  refine ⟨⟨defaultInterpreters, defaultModule, "$(id)".toList, by decide⟩, rfl, ?_⟩
  decide +kernel

end Bootscript.Launcher
