import Dartify.Log.Directive

/-! Which events are shown. Of the directives about events by themselves, the most specific that
suits an event decides; those that name a span show more of what happens within such a span. -/
namespace Dartify.Log

/-- Directives of which no two are about the same events. -/
abbrev Filter := List Directive

namespace Filter

/-- What is shown if nothing else is asked for. -/
def standard : Filter := [.ofRank Level.warn.rank]

/-- The directives of a text, with commas between them, and a line for each that is none. Of
directives about the same events the last counts. -/
def ofText (text : String) : Filter × List String :=
  let pieces := (Text.split ',' text.toList).filter (!·.isEmpty)
  pieces.foldr (fun piece (filter, complaints) =>
    match Directive.parse piece with
    | .ok d => (if filter.any d.sameScope then filter else d :: filter, complaints)
    | .error fault =>
      (filter, ("ignoring `" ++ String.ofList piece ++ "`: " ++ fault.message) :: complaints))
    ([], [])

/-- Whether the most specific of the directives that suit a place shows a level. -/
def decides (suiting : Filter) (level : Level) : Bool :=
  let best := suiting.foldl (fun best d => if best.all d.supersedes then some d else best) none
  best.any (level.rank ≤ ·.rank)

/-- Whether a span is shown: its name and its fields stand in front of the events in it. -/
def showsSpan (filter : Filter) (span : Span) : Bool :=
  filter.any (fun d => d.namesSpan && d.suitsSpan span) ||
    decides (filter.filter fun d => d.isPlain && d.suitsModule span.module) span.level

/-- Whether the events of a place are shown, which may lie within a span. -/
def admits (filter : Filter) (place : Origin) (span : Option Span) : Bool :=
  span.any (fun s => filter.any fun d =>
    d.namesSpan && d.suitsSpan s && d.suitsValues s && place.level.rank ≤ d.rank) ||
    decides (filter.filter fun d => d.isPlain && d.suits place) place.level

end Filter

end Dartify.Log
