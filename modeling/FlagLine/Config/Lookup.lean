import FlagLine.Config.Schema
import FlagLine.Regex.Match
import FlagLine.Text.Glob
import FlagLine.Host.Path
/-!
# Looking things up in a configuration

The program for an executable is the first configured program whose name equals the
executable's last path part, case aside, or one of whose aliases names it: a `glob:`
pattern or a `regexp:` pattern matched at the start, both with case counting, or a
literal alias case aside. A pattern alias that does not compile is an error. The flags
for an executable are the global flags followed by its program's. A theme is found by
name, case aside, else the theme named `default`, else a plain white theme. A category
map expands to the categories it lists, each expanded in turn, down to a given number of
levels or all the way; maps that nest too deep, as a cycle does, cannot be expanded.
-/

namespace FlagLine.Config

/-- Whether an alias names an executable's name, case counting for patterns. -/
def aliasMatches (name : String) (written : String) : Except Regex.RegexError Bool :=
  if written.startsWith "glob:" then .ok (Glob.accepts (String.ofList (written.toList.drop 5)) name)
  else if written.startsWith "regexp:" then do
    let p ← Regex.parse (String.ofList (written.toList.drop 7))
    pure (p.matchStart name).isSome
  else .ok (Text.lowerString written == Text.lowerString name)

/-- Whether some alias names an executable's name, in order. -/
def anyAliasMatches (name : String) : List String → Except Regex.RegexError Bool
  | [] => .ok false
  | a :: rest => do if ← aliasMatches name a then pure true else anyAliasMatches name rest

def programFor (c : Config) (executable : String) : Except Regex.RegexError (Option Program) :=
  go (Path.basename executable) c.programs
where
  go (name : String) : List (String × Program) → Except Regex.RegexError (Option Program)
    | [] => .ok none
    | (_, p) :: rest => do
      if Text.lowerString p.name == Text.lowerString name then return some p
      if ← anyAliasMatches name p.aliases then return some p
      go name rest

/-- The flags for an executable: the global ones, then its program's. -/
def flagsFor (c : Config) (executable : String) : Except Regex.RegexError (List Flag) := do
  match ← c.programFor executable with
  | some p => pure (c.flags ++ p.flags)
  | none => pure c.flags

/-- The theme of a name, case aside; else the default theme. -/
def theme (c : Config) (name : Option String) : Theme :=
  let named := match name with
    | some n => if n.isEmpty then none else c.themes.find? (Text.lowerString n)
    | none => none
  match named with
  | some t => t
  | none => (c.themes.find? "default").getD { name := "default" }

/-- How many maps may nest inside one another in an expansion. -/
def expansionDepth : Nat := 990

/-- Expands a category through at most `depth` nested maps: a map expands to its
categories expanded one level less, unless no levels are left; any other name is itself.
A negative level never runs out. Running out of depth is an error. -/
def expandWithin (c : Config) : Nat → String → Option Int → Except Unit (List String)
  | 0, _, _ => .error ()
  | depth + 1, category, level =>
    match c.categoryMaps.find? (Text.lowerString category) with
    | none => .ok [category]
    | some m =>
      if level == some 0 then .ok [category]
      else m.categories.flatMapM (fun cat => expandWithin c depth cat (level.map (· - 1)))

/-- The categories a category or category map stands for. -/
def expandCategory (c : Config) (category : String) (level : Option Int) : Except Unit (List String) :=
  expandWithin c expansionDepth category level

end FlagLine.Config
