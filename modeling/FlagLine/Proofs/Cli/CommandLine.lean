import FlagLine.Cli.Run
import FlagLine.Proofs.Token.Join
/-!
# The line handed to the editor

The words of the command line are joined by single spaces, without quoting, and once the
configuration loads that line is what the editor is asked to edit, whatever the editor then
answers. The editor reads the line back into words with the tokenizer, so it opens on the
words it was given exactly when each is a nonempty run of characters that are no blank and no
quote, and no backslash of the line escapes the character after it. A word holding a space
opens as two words, an empty word is lost, and a quoted word loses its quotes.
Main statement: `run_edits_joined_words`; `run_splits_spaced_word` shows a word split in two.
-/

namespace FlagLine

namespace Config

/-- A configuration whose main file and drop-in directory are both missing is the empty one. -/
theorem load_of_absent {files : FileTree} {cwd : List String} {main dropins : String}
    (hm : files.statNormal cwd main = none) (hd : files.statNormal cwd dropins = none) :
    load files cwd main dropins = .ok {} := by
  simp only [load, fileData, hm, dropinData, hd, bind, Except.bind, mergeInto, deepMerge,
    Value.mergeEntries.eq_1]
  rfl

end Config

namespace Cli

/-- A host with no files and no environment, on which no program starts. -/
def quietHost : Host :=
  { files := {}, cwd := [], env := [], behaviour := fun _ _ ↦ .error .execFormat }

section Request

variable {h : Host} {args : List String} {o : Options} {c : Config}

/-- Once the arguments are read as options and the configuration loads, the editor is asked
to edit the words of the command line joined by single spaces, unless that line is empty;
what the editor answers does not change what it was asked. -/
theorem run_request_line (edit : EditRequest → EditResult) (hparse : parse args = .options o)
    (hload : Config.load h.files h.cwd (configPaths h.env o).1 (configPaths h.env o).2 = .ok c) :
    (run h args edit).request.map EditRequest.commandLine =
      if " ".intercalate o.command = "" then none else some (" ".intercalate o.command) := by
  unfold run
  rw [hparse]
  simp only
  split
  · next hempty =>
    rw [String.isEmpty_iff] at hempty
    rw [if_pos hempty]
    rfl
  · next hne =>
    rw [String.isEmpty_iff] at hne
    rw [if_neg hne, hload]
    simp only
    split <;> rfl

/-- The editor is asked to edit the words of the command line joined by single spaces, and
it reads them back as those words exactly when each is a nonempty run of characters that are
no blank and no quote and no backslash of the line escapes the character after it. -/
theorem run_edits_joined_words (edit : EditRequest → EditResult)
    (hparse : parse args = .options o)
    (hload : Config.load h.files h.cwd (configPaths h.env o).1 (configPaths h.env o).2 = .ok c) :
    (run h args edit).request.map EditRequest.commandLine =
        (if " ".intercalate o.command = "" then none else some (" ".intercalate o.command)) ∧
      ((tokenize (" ".intercalate o.command)).map Token.value = o.command ↔
        (∀ w ∈ o.command, standsBare w.toList = true) ∧
          escapesNothing (" ".intercalate o.command).toList = true) :=
  ⟨run_request_line edit hparse hload, tokenize_intercalate_iff o.command⟩

end Request

/-- The example of the help text, on a host without configuration files. -/
theorem run_edits_joined_words_help :
    parse ["--", "gcc", "-O2", "main.c"] = .options { command := ["gcc", "-O2", "main.c"] } ∧
      Config.load quietHost.files quietHost.cwd
          (configPaths quietHost.env { command := ["gcc", "-O2", "main.c"] }).1
          (configPaths quietHost.env { command := ["gcc", "-O2", "main.c"] }).2 = .ok {} ∧
      ((run quietHost ["--", "gcc", "-O2", "main.c"] fun _ ↦ .interrupted).request.map
            EditRequest.commandLine =
          (if " ".intercalate ["gcc", "-O2", "main.c"] = "" then none
            else some (" ".intercalate ["gcc", "-O2", "main.c"])) ∧
        ((tokenize (" ".intercalate ["gcc", "-O2", "main.c"])).map Token.value =
            ["gcc", "-O2", "main.c"] ↔
          (∀ w ∈ ["gcc", "-O2", "main.c"], standsBare w.toList = true) ∧
            escapesNothing (" ".intercalate ["gcc", "-O2", "main.c"]).toList = true)) := by
  have hparse : parse ["--", "gcc", "-O2", "main.c"] =
      .options { command := ["gcc", "-O2", "main.c"] } := by
    decide +kernel
  refine ⟨hparse, ?_⟩
  have hload : Config.load quietHost.files quietHost.cwd
      (configPaths quietHost.env { command := ["gcc", "-O2", "main.c"] }).1
      (configPaths quietHost.env { command := ["gcc", "-O2", "main.c"] }).2 = .ok {} :=
    Config.load_of_absent (by decide +kernel) (by decide +kernel)
  exact ⟨hload, run_edits_joined_words _ hparse hload⟩

/-- A word holding a space is handed to the editor as it stands, and the editor reads it as
two words. -/
theorem run_splits_spaced_word :
    (run quietHost ["a b"] fun _ ↦ .interrupted).request.map
      (fun r ↦ (tokenize r.commandLine).map Token.value) = some ["a", "b"] := by
  have hparse : parse ["a b"] = .options { command := ["a b"] } := by decide +kernel
  have hline := run_request_line (h := quietHost) (fun _ ↦ .interrupted) hparse
    (Config.load_of_absent (by decide +kernel) (by decide +kernel))
  rw [show (fun r : EditRequest ↦ (tokenize r.commandLine).map Token.value) =
    (fun s ↦ (tokenize s).map Token.value) ∘ EditRequest.commandLine from rfl, ← Option.map_map,
    hline]
  decide +kernel

end Cli

end FlagLine
