import FlagLine.Bench.Basic
import FlagLine.Color.Render
/-!
# The colour workload

Parses colour specifications in turn and writes each parsed colour out both ways: as a
terminal escape and as a screen style. The specifications cover attributes, background
words, the bright prefix, hexadecimal and numbered colours, an overlay marker, an empty
and a meaningless specification. Then it lays one colour over another, renders sample
shades as both colours of one colour beside their screen names, and counts the colours
given to a number of capture groups with and without specifications.
-/

namespace FlagLine.Bench

open Fingerprint

def colorSpecs : List String :=
  ["bold red on white", "+underline bright cyan",
   "italic blink reverse hidden strikethrough green on bright blue", "dim bright black",
   "bright magenta on black", "#ff00aa", "123", "reverse yellow on bright black", "", "nonsense",
   "bold"]

def sampleShades : List Shade :=
  [.index 0, .index 3, .index 9, .index 14, .index 42, .name "red", .name "bright red",
   .name "purple"]

def renderings (c : Color) : List Datum := [.text c.ansi, .text c.style]

def colorsRun (n : Nat) : Datum :=
  let parsed := (cycleTake colorSpecs n).flatMap (fun s => renderings (Color.parse s))
  let laid := Color.overlay (Color.parse "bold") (Color.parse "+green on blue")
  let shades := sampleShades.flatMap (fun s =>
    let c : Color := { fg := some s, bg := some s }
    [.text c.ansi, .text s.styleName])
  list (parsed ++ [.text laid.ansi] ++ shades ++
    [count (Color.forGroups ["red", "blue"] 5).length, count (Color.forGroups [] 3).length])

def colorsWorkload : Workload :=
  Workload.ofTotal "bench_parse_colors" "n_specs" [150, 600, 2400] 600 colorsRun

end FlagLine.Bench
