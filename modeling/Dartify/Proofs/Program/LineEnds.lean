import Mathlib.Data.List.Basic
import Dartify.Proofs.Comment.Items
import Dartify.Proofs.Program.Header

/-! Line ends of one character and of two. Writing a carriage return in front of every line feed of
a text without any moves what stands in it, and changes nothing else. Main statement: the comments
found from an offset are those found from where the offset moves to, each moved as well, and the
same paths are named. -/
namespace Dartify

namespace Text

/-- A text with a carriage return in front of every line feed. -/
def crlf (cs : List Char) : List Char :=
  cs.flatMap fun c => if c = '\n' then ['\r', '\n'] else [c]

/-- Where an offset moves to: the line feeds in front of it become one byte longer. -/
def moved (text : List Char) (pos : Nat) : Nat := pos + (takeBytes pos text).count '\n'

@[simp] theorem crlf_nil : crlf [] = [] := rfl

theorem crlf_feed (cs : List Char) : crlf ('\n' :: cs) = '\r' :: '\n' :: crlf cs := rfl

theorem crlf_cons {c : Char} (other : c ≠ '\n') (cs : List Char) : crlf (c :: cs) = c :: crlf cs := by
  simp [crlf, other]

@[simp] theorem crlf_append (as bs : List Char) : crlf (as ++ bs) = crlf as ++ crlf bs :=
  List.flatMap_append

theorem crlf_whole {cs : List Char} (whole : '\n' ∉ cs) : crlf cs = cs := by
  induction cs with
  | nil => rfl
  | cons c cs ih =>
    obtain ⟨other, whole⟩ := List.ne_and_not_mem_of_not_mem_cons whole
    rw [crlf_cons other.symm, ih whole]

theorem bytes_crlf (cs : List Char) : bytes (crlf cs) = bytes cs + cs.count '\n' := by
  induction cs with
  | nil => rfl
  | cons c cs ih =>
    by_cases feed : c = '\n'
    · subst feed
      have narrow : '\r'.utf8Size = 1 ∧ '\n'.utf8Size = 1 := by decide
      rw [crlf_feed, bytes, bytes, bytes, ih, List.count_cons_self, narrow.1, narrow.2]
      omega
    · rw [crlf_cons feed, bytes, bytes, ih, List.count_cons_of_ne feed]
      omega

theorem moved_append (front rest : List Char) :
    moved (front ++ rest) (bytes front) = bytes (crlf front) := by
  rw [moved, takeBytes_append, bytes_crlf]

theorem lines_crlf {text : List Char} {lines : List (List Char)} (plain : '\r' ∉ text)
    (are : Lines text lines) : Lines (crlf text) lines := by
  induction are with
  | empty => exact .empty
  | last more whole =>
    rw [crlf_whole whole]
    exact .last more whole
  | feed whole bare more ih =>
    rw [crlf_append, crlf_whole whole, crlf_feed]
    exact .pair whole (ih fun mem => plain (by simp [mem]))
  | pair whole more => exact absurd (by simp) plain

end Text

namespace Comment

open Text (crlf)

/-! ## Items -/

theorem head?_crlf {cs : List Char} {c : Char} (other : c ≠ '\n') (other' : c ≠ '\r') :
    (crlf cs).head? = some c ↔ cs.head? = some c := by
  cases cs with
  | nil => rfl
  | cons d cs =>
    by_cases feed : d = '\n'
    · subst feed
      simp [Text.crlf_feed, other.symm, other'.symm]
    · simp [Text.crlf_cons feed]

theorem endMark_crlf {cs : List Char} : ['*', '/'] <:+: crlf cs ↔ ['*', '/'] <:+: cs := by
  induction cs with
  | nil => rfl
  | cons c cs ih =>
    by_cases feed : c = '\n'
    · subst feed
      simp [Text.crlf_feed, endMark_cons, ih]
    · rw [Text.crlf_cons feed, endMark_cons, endMark_cons, ih,
        head?_crlf (by decide) (by decide)]

theorem isLineBreak_head?_crlf {cs : List Char}
    (ends : ∀ c, cs.head? = some c → Text.isLineBreak c = true) :
    ∀ c, (crlf cs).head? = some c → Text.isLineBreak c = true := by
  intro c first
  cases cs with
  | nil => cases first
  | cons d cs =>
    by_cases feed : d = '\n'
    · subst feed
      cases first
      decide
    · rw [Text.crlf_cons feed] at first
      exact ends c first

/-- An item with a carriage return in front of every line feed. -/
def Item.crlf : Item → Item
  | lineBreak text => lineBreak (Text.crlf text)
  | blank c => blank c
  | comment text => comment (Text.crlf text)

theorem Item.Stands.crlf {item : Item} {rest : List Char} (stands : item.Stands rest)
    (plain : '\r' ∉ item.text) :
    item.crlf.Stands (Text.crlf rest) ∧ item.crlf.text = Text.crlf item.text := by
  cases stands with
  | pair => exact absurd (by simp [text]) plain
  | @lineBreak c _ ends single =>
    refine ⟨?_, rfl⟩
    by_cases feed : c = '\n'
    · subst feed
      exact .pair _
    · have other : c ≠ '\r' := by
        rintro rfl
        exact plain (by simp [text])
      have same : Text.crlf [c] = [c] := Text.crlf_cons feed []
      rw [Item.crlf, same]
      exact .lineBreak ends fun ends => absurd ends other
  | @blank c _ runs =>
    have other : c ≠ '\n' := by
      rintro rfl
      exact absurd runs (by decide)
    exact ⟨.blank _ runs, (Text.crlf_cons other []).symm⟩
  | @line inner _ runs ends =>
    have whole : '\n' ∉ inner := fun mem => absurd (runs _ mem) (by decide)
    have same : Text.crlf ('/' :: '/' :: inner) = '/' :: '/' :: inner :=
      Text.crlf_whole (by simpa using whole)
    rw [Item.crlf, same]
    exact ⟨.line runs (isLineBreak_head?_crlf ends), same.symm⟩
  | @block inner _ first =>
    have same : Text.crlf ('/' :: '*' :: (inner ++ ['*', '/'])) =
        '/' :: '*' :: (Text.crlf inner ++ ['*', '/']) := by
      rw [Text.crlf_cons (by decide), Text.crlf_cons (by decide), Text.crlf_append]
      rfl
    rw [Item.crlf, same]
    refine ⟨.block _ ?_, same.symm⟩
    have mark : Text.crlf (inner ++ ['*']) = Text.crlf inner ++ ['*'] := Text.crlf_append ..
    rwa [← mark, endMark_crlf]
  | @unclosed inner runs =>
    have same : Text.crlf ('/' :: '*' :: inner) = '/' :: '*' :: Text.crlf inner := by
      rw [Text.crlf_cons (by decide), Text.crlf_cons (by decide)]
    rw [Item.crlf, same]
    exact ⟨.unclosed (by rwa [endMark_crlf]), same.symm⟩

/-! ## Runs of trivia -/

theorem body?_crlf_eq_none {c : Char} {cs : List Char} (plain : body? (c :: cs) = none) :
    body? (c :: crlf cs) = none := by
  unfold body?
  split
  · rename_i inner same
    obtain ⟨rfl, behind⟩ := List.cons.inj same
    have slash := (head?_crlf (by decide) (by decide)).mp (congrArg List.head? behind)
    obtain ⟨rest, rfl⟩ := List.head?_eq_some_iff.mp slash
    cases plain
  · rename_i inner same
    obtain ⟨rfl, behind⟩ := List.cons.inj same
    have star := (head?_crlf (by decide) (by decide)).mp (congrArg List.head? behind)
    obtain ⟨rest, rfl⟩ := List.head?_eq_some_iff.mp star
    cases plain
  · rfl

theorem Trivia.crlf {cs rest : List Char} {items : List Item} (run : Trivia cs items rest)
    (plain : '\r' ∉ cs) :
    Trivia (Text.crlf cs) (items.map Item.crlf) (Text.crlf rest) ∧
      ∀ item ∈ items, item.crlf.text = Text.crlf item.text := by
  induction run with
  | @none cs ends =>
    -- No item begins here, so the next character is no line feed, and it stays as it is.
    refine ⟨.none fun item rest split stands => ?_, nofun⟩
    have read := item?_of_stands stands
    rw [← split] at read
    cases cs with
    | nil => cases read
    | cons c cs =>
      obtain ⟨comment, runs, visible⟩ := ends_of_no_item ends
      have other : c ≠ '\n' ∧ c ≠ '\r' := by
        constructor <;> (rintro rfl; exact absurd runs (by decide))
      rw [Text.crlf_cons other.1, item?, body?_crlf_eq_none comment] at read
      simp [runs, visible, other.2] at read
  | @cons item items behind rest stands more ih =>
    have before : '\r' ∉ item.text := fun mem => plain (List.mem_append_left _ mem)
    have after : '\r' ∉ behind := fun mem => plain (List.mem_append_right _ mem)
    obtain ⟨stands', same⟩ := stands.crlf before
    obtain ⟨more', texts⟩ := ih after
    refine ⟨?_, List.forall_mem_cons.mpr ⟨same, texts⟩⟩
    rw [Text.crlf_append, ← same, List.map_cons]
    exact .cons stands' more'

theorem breaksLine_crlf (cs : List Char) : breaksLine (crlf cs) = breaksLine cs := by
  induction cs with
  | nil => rfl
  | cons c cs ih =>
    by_cases feed : c = '\n'
    · subst feed
      rw [Text.crlf_feed, breaksLine_lineBreak _ (by decide), breaksLine_lineBreak _ (by decide)]
    · rw [Text.crlf_cons feed]
      cases blank : Text.isHorizontalBlank c with
      | true => simpa [breaksLine, blank] using ih
      | false => simp [breaksLine, blank]

/-- A comment range where the text has longer line ends. -/
def Range.moved (text : List Char) (r : Range) : Range :=
  ⟨Text.moved text r.start, Text.moved text r.stop, r.endsLine⟩

theorem ranges_crlf {items : List Item}
    (texts : ∀ item ∈ items, item.crlf.text = crlf item.text) (front rest : List Char)
    (counts : Bool) :
    ranges (Text.bytes (crlf front)) counts (items.map Item.crlf) (crlf rest) =
      (ranges (Text.bytes front) counts items rest).map
        (Range.moved (front ++ (items.flatMap Item.text ++ rest))) := by
  induction items generalizing front counts with
  | nil => rfl
  | cons item items ih =>
    obtain ⟨here, texts⟩ := List.forall_mem_cons.mp texts
    have behind : (items.map Item.crlf).flatMap Item.text = crlf (items.flatMap Item.text) := by
      rw [List.flatMap_map, crlf, List.flatMap_assoc]
      exact List.flatMap_congr texts
    have stop : Text.bytes (crlf front) + Text.bytes item.crlf.text =
        Text.bytes (crlf (front ++ item.text)) := by
      rw [here, Text.crlf_append, Text.bytes_append]
    have later := ih texts (front ++ item.text) (counts || item.isLineBreak)
    have whole : front ++ ((item :: items).flatMap Item.text ++ rest) =
        front ++ item.text ++ (items.flatMap Item.text ++ rest) := by simp
    have range : (⟨Text.bytes (crlf front), Text.bytes (crlf (front ++ item.text)),
        breaksLine (crlf (items.flatMap Item.text ++ rest))⟩ : Range) =
        Range.moved (front ++ ((item :: items).flatMap Item.text ++ rest))
          ⟨Text.bytes front, Text.bytes (front ++ item.text),
            breaksLine (items.flatMap Item.text ++ rest)⟩ := by
      rw [Range.moved, breaksLine_crlf, Text.moved_append, whole, Text.moved_append]
    have same : item.crlf.isComment = item.isComment ∧ item.crlf.isLineBreak = item.isLineBreak := by
      cases item <;> exact ⟨rfl, rfl⟩
    simp only [ranges, List.map_cons, same.1, same.2, stop, behind, ← Text.crlf_append, range]
    rw [← Text.bytes_append, later, ← whole]
    cases counts && item.isComment <;> rfl

/-! ## Scanning from an offset -/

theorem lineText_crlf (cs : List Char) : lineText (crlf cs) = lineText cs := by
  induction cs with
  | nil => rfl
  | cons c cs ih =>
    by_cases feed : c = '\n'
    · subst feed
      have first : Text.isLineBreak '\r' = true ∧ Text.isLineBreak '\n' = true := by decide
      simp [Text.crlf_feed, lineText, first.1, first.2]
    · rw [Text.crlf_cons feed, lineText, lineText]
      cases ends : Text.isLineBreak c with
      | true => simp [ends]
      | false => simpa [ends, lineText] using ih

theorem startsInterpreterLine_crlf (cs : List Char) :
    startsInterpreterLine (crlf cs) = startsInterpreterLine cs := by
  rw [Bool.eq_iff_iff, startsInterpreterLine_iff, startsInterpreterLine_iff]
  constructor
  · rintro ⟨rest, starts⟩
    have first := (head?_crlf (by decide) (by decide)).mp (congrArg List.head? starts)
    obtain ⟨cs, rfl⟩ := List.head?_eq_some_iff.mp first
    rw [Text.crlf_cons (by decide)] at starts
    have second := (head?_crlf (by decide) (by decide)).mp
      (congrArg List.head? (List.cons.inj starts).2)
    obtain ⟨cs, rfl⟩ := List.head?_eq_some_iff.mp second
    exact ⟨cs, rfl⟩
  · rintro ⟨rest, rfl⟩
    exact ⟨crlf rest, by rw [Text.crlf_cons (by decide), Text.crlf_cons (by decide)]⟩

theorem bytes_crlf_eq_zero_iff (cs : List Char) :
    Text.bytes (crlf cs) = 0 ↔ Text.bytes cs = 0 := by
  rw [Text.bytes_crlf, Nat.add_eq_zero_iff, Text.bytes_eq_zero_iff]
  exact ⟨fun h => h.1, by rintro rfl; exact ⟨rfl, rfl⟩⟩

theorem passedOver_crlf (front cs : List Char) :
    passedOver (Text.bytes (crlf front)) (crlf cs) = crlf (passedOver (Text.bytes front) cs) := by
  have whole : '\n' ∉ lineText cs := fun mem =>
    absurd (List.mem_takeWhile_imp mem) (by decide)
  simp only [passedOver, bytes_crlf_eq_zero_iff, startsInterpreterLine_crlf, lineText_crlf]
  split
  · exact (Text.crlf_whole whole).symm
  · rfl

theorem leading_moved {front rest : List Char} (plain : '\r' ∉ front ++ rest) :
    leading (crlf (front ++ rest)) (Text.moved (front ++ rest) (Text.bytes front)) =
      (leading (front ++ rest) (Text.bytes front)).map (Range.moved (front ++ rest)) := by
  obtain ⟨line, behind, rfl, passed⟩ := exists_passedOver (Text.bytes front) rest
  obtain ⟨items, rest, run⟩ := exists_trivia behind
  obtain ⟨run', texts⟩ := run.crlf fun mem => plain (by simp [mem])
  have passed' : passedOver (Text.bytes (crlf front)) (crlf line ++ crlf behind) = crlf line := by
    rw [← Text.crlf_append, passedOver_crlf, passed]
  have found := ranges_crlf texts (front ++ line) rest (decide (Text.bytes front = 0))
  rw [← run.split, List.append_assoc] at found
  rw [Text.moved_append, Text.crlf_append, Text.crlf_append, leading_eq_ranges passed' run',
    leading_eq_ranges passed run, ← found, ← Text.crlf_append]
  simp only [bytes_crlf_eq_zero_iff]

theorem Range.StandsIn.text_crlf {text : List Char} {r : Range} (stands : r.StandsIn text) :
    (r.moved text).text (crlf text) = .ofList (crlf (r.text text).toList) := by
  obtain ⟨front, body, rest, rfl, -, rfl⟩ := stands.parts
  have moved : Range.moved (front ++ (body ++ rest))
      ⟨Text.bytes front, Text.bytes front + Text.bytes body, breaksLine rest⟩ =
      ⟨Text.bytes (crlf front), Text.bytes (crlf front) + Text.bytes (crlf body),
        breaksLine rest⟩ := by
    rw [Range.moved, Text.moved_append, ← Text.bytes_append, ← List.append_assoc,
      Text.moved_append, Text.crlf_append, Text.bytes_append]
  rw [moved, Text.crlf_append, Text.crlf_append, Range.text_eq, Range.text_eq, String.toList_ofList]

theorem paths_crlf {text : List Char} (plain : '\r' ∉ text) :
    Reference.paths (crlf text) = Reference.paths text := by
  obtain ⟨lines, are⟩ := Text.exists_lines text
  exact Reference.paths_congr (Text.lines_crlf plain are) are rfl

/-- A text without carriage returns may end its lines with them as well: from an offset between two
characters the same comments are found, each where its offsets move to, the texts of the comments
have the longer line ends, and the same paths are named. -/
theorem leading_crlf {text : List Char} (plain : '\r' ∉ text) :
    (∀ front rest, text = front ++ rest →
      leading (crlf text) (Text.moved text (Text.bytes front)) =
        (leading text (Text.bytes front)).map (Range.moved text)) ∧
    (∀ pos, ∀ r ∈ leading text pos,
      (r.moved text).text (crlf text) = .ofList (crlf (r.text text).toList)) ∧
    Reference.paths (crlf text) = Reference.paths text := by
  refine ⟨?_, fun pos r mem => (mem_leading mem).text_crlf, paths_crlf plain⟩
  rintro front rest rfl
  exact leading_moved plain

def fourLines : List Char := "a;\n// one\n/* x\n */ b".toList

theorem leading_crlf_fourLines :
    '\r' ∉ fourLines ∧ leading fourLines 2 = [⟨3, 9, true⟩, ⟨10, 18, false⟩] ∧
      leading (crlf fourLines) 2 = [⟨4, 10, true⟩, ⟨12, 21, false⟩] ∧
      (∀ r ∈ leading fourLines 2,
        (r.moved fourLines).text (crlf fourLines) = .ofList (crlf (r.text fourLines).toList)) ∧
      Reference.paths (crlf fourLines) = Reference.paths fourLines := by
  have plain : '\r' ∉ fourLines := by decide
  have here : leading fourLines 2 = [⟨3, 9, true⟩, ⟨10, 18, false⟩] := by decide
  obtain ⟨found, texts, paths⟩ := leading_crlf plain
  have moves : leading (crlf fourLines) 2 = (leading fourLines 2).map (Range.moved fourLines) :=
    found "a;".toList _ rfl
  exact ⟨plain, here, by rw [moves, here]; decide, texts 2, paths⟩

end Comment

end Dartify
