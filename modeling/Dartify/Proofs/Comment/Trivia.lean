import Dartify.Comment.Scan
import Dartify.Proofs.Text.Bytes

/-! Where comments stand. Scanning passes over a comment as a whole, so a comment that it finds is
fixed by the text at its start: the same start means the same comment, whoever reports it. -/
namespace Dartify.Comment

/-- The text in front of the next line break. -/
def lineText (cs : List Char) : List Char := cs.takeWhile (!Text.isLineBreak ·)

/-- What belongs to a block comment behind its opening. -/
def closing : List Char → List Char
  | [] => []
  | '*' :: '/' :: _ => ['*', '/']
  | c :: cs => c :: closing cs

/-- The comment that a text begins with. -/
def body? : List Char → Option (List Char)
  | '/' :: '/' :: cs => some ('/' :: '/' :: lineText cs)
  | '/' :: '*' :: cs => some ('/' :: '*' :: closing cs)
  | _ => none

/-- Whether only blanks stand before the next line break. -/
def breaksLine (cs : List Char) : Bool :=
  (cs.dropWhile Text.isHorizontalBlank).head?.any Text.isLineBreak

/-- The range of the comment that a text begins with, at an offset. -/
def Range.at? (start : Nat) (cs : List Char) : Option Range :=
  (body? cs).map fun body => ⟨start, start + Text.bytes body, breaksLine (cs.drop body.length)⟩

/-- A range is that of a comment somewhere in a text that begins at an offset. -/
def Range.Ahead (pos : Nat) (cs : List Char) (r : Range) : Prop :=
  ∃ front rest, cs = front ++ rest ∧ Range.at? (pos + Text.bytes front) rest = some r

def Range.StandsIn (text : List Char) (r : Range) : Prop := r.Ahead 0 text

/-! ## Comments as a whole -/

theorem lineText_begins (cs : List Char) : lineText cs <+: cs := List.takeWhile_prefix _

theorem closing_begins (cs : List Char) : closing cs <+: cs := by
  fun_induction closing cs with
  | case1 => exact List.prefix_rfl
  | case2 cs => exact ⟨cs, rfl⟩
  | case3 c cs _ ih => exact List.cons_prefix_cons.mpr ⟨rfl, ih⟩

theorem body?_begins {cs body : List Char} (h : body? cs = some body) : body <+: cs := by
  unfold body? at h
  split at h
  · cases h
    simpa using lineText_begins _
  · cases h
    simpa using closing_begins _
  · cases h

theorem body?_append_drop {cs body : List Char} (h : body? cs = some body) :
    body ++ cs.drop body.length = cs :=
  List.prefix_iff_eq_append.mp (body?_begins h)

theorem scan_line (start pos : Nat) (p : Pending) (cs : List Char) :
    scan (.line start) pos p cs =
      p.settled ++ scan .gap (pos + Text.bytes (lineText cs))
        (p.comment start (pos + Text.bytes (lineText cs)) false)
        (cs.drop (lineText cs).length) := by
  induction cs generalizing pos with
  | nil => simp [scan, lineText, Text.bytes]
  | cons c cs ih =>
    cases ends : Text.isLineBreak c with
    | true =>
      have plain : c ≠ '/' := by
        rintro rfl
        exact absurd ends (by decide)
      have same : (p.comment start pos true).lineBreak = (p.comment start pos false).lineBreak := by
        unfold Pending.comment
        split <;> rfl
      simp [scan, lineText, ends, Text.bytes, plain, same]
    | false =>
      have step : lineText (c :: cs) = c :: lineText cs := by simp [lineText, ends]
      rw [step, Text.bytes, ← Nat.add_assoc, List.length_cons, List.drop_succ_cons, ← ih]
      simp [scan, ends]

theorem scan_block (start pos : Nat) (p : Pending) (cs : List Char) :
    scan (.block start) pos p cs =
      p.settled ++ scan .gap (pos + Text.bytes (closing cs))
        (p.comment start (pos + Text.bytes (closing cs)) false) (cs.drop (closing cs).length) := by
  fun_induction closing cs generalizing pos with
  | case1 => simp [scan, Text.bytes]
  | case2 cs =>
    have size : Text.bytes ['*', '/'] = 2 := by decide
    rw [scan, size]
    rfl
  | case3 c cs open? ih =>
    rw [scan, ih, Text.bytes, Nat.add_assoc, List.length_cons, List.drop_succ_cons]
    exact open?

/-- A comment is passed over as a whole, and settles the one before it. -/
theorem scan_comment {cs body : List Char} (h : body? cs = some body) (pos : Nat) (p : Pending) :
    scan .gap pos p cs =
      p.settled ++ scan .gap (pos + Text.bytes body) (p.comment pos (pos + Text.bytes body) false)
        (cs.drop body.length) := by
  have slash : '/'.utf8Size = 1 := by decide
  have star : '*'.utf8Size = 1 := by decide
  unfold body? at h
  split at h
  · rename_i cs
    cases h
    have size : Text.bytes ('/' :: '/' :: lineText cs) = 2 + Text.bytes (lineText cs) := by
      rw [Text.bytes, Text.bytes, slash]
      omega
    rw [scan, scan_line, size, Nat.add_assoc]
    rfl
  · rename_i cs
    cases h
    have size : Text.bytes ('/' :: '*' :: closing cs) = 2 + Text.bytes (closing cs) := by
      rw [Text.bytes, Text.bytes, slash, star]
      omega
    rw [scan, scan_block, size, Nat.add_assoc]
    rfl
  · cases h

theorem scan_gap_cons {c : Char} {cs : List Char} (h : body? (c :: cs) = none) (pos : Nat)
    (p : Pending) :
    scan .gap pos p (c :: cs) =
      if Text.isLineBreak c then scan .gap (pos + c.utf8Size) p.lineBreak cs
      else if Text.isHorizontalBlank c then scan .gap (pos + c.utf8Size) p cs
      else p.last.toList := by
  apply scan.eq_4
  · rintro cs rfl rfl
    cases h
  · rintro cs rfl rfl
    cases h

/-! ## What scanning finds -/

/-- A comment before its line is known to end, seen from what follows it. -/
def Range.settle (r : Range) (cs : List Char) : Range :=
  { r with endsLine := r.endsLine || breaksLine cs }

def Pending.Sound (p : Pending) : Prop := p.collecting = true ∨ p.last = none

theorem Pending.Sound.lineBreak (p : Pending) : p.lineBreak.Sound := Or.inl rfl

theorem Pending.Sound.comment {p : Pending} (sound : p.Sound) (start stop : Nat) (e : Bool) :
    (p.comment start stop e).Sound := by
  unfold Pending.comment
  split
  · exact Or.inl rfl
  · exact sound

theorem breaksLine_comment {cs body : List Char} (h : body? cs = some body) :
    breaksLine cs = false := by
  unfold body? at h
  split at h
  · rfl
  · rfl
  · cases h

theorem breaksLine_lineBreak {c : Char} (cs : List Char) (ends : Text.isLineBreak c = true) :
    breaksLine (c :: cs) = true := by
  have visible : Text.isHorizontalBlank c = false := by
    cases blank : Text.isHorizontalBlank c with
    | true =>
      have runs := Text.isHorizontalBlank_not_isLineBreak blank
      rw [ends] at runs
      cases runs
    | false => rfl
  simp [breaksLine, visible, ends]

theorem drop_body_shorter {cs body : List Char} (h : body? cs = some body) :
    (cs.drop body.length).length < cs.length := by
  have whole := congrArg List.length (body?_append_drop h)
  have opens : 2 ≤ body.length := by
    unfold body? at h
    split at h
    · cases h
      simp
    · cases h
      simp
    · cases h
  rw [List.length_append] at whole
  omega

theorem Range.Ahead.append {pos : Nat} {cs : List Char} {r : Range} (front : List Char)
    (h : Range.Ahead (pos + Text.bytes front) cs r) : Range.Ahead pos (front ++ cs) r := by
  obtain ⟨between, rest, rfl, stands⟩ := h
  refine ⟨front ++ between, rest, (List.append_assoc ..).symm, ?_⟩
  rw [Text.bytes_append, ← Nat.add_assoc]
  exact stands

theorem Range.Ahead.cons {pos : Nat} {c : Char} {cs : List Char} {r : Range}
    (h : Range.Ahead (pos + c.utf8Size) cs r) : Range.Ahead pos (c :: cs) r := by
  have size : Text.bytes [c] = c.utf8Size := rfl
  rw [← size] at h
  exact h.append [c]

/-- A comment that scanning finds is the one whose line was still open, or one that begins
further on. -/
theorem mem_scan (cs : List Char) (pos : Nat) (p : Pending) (sound : p.Sound) (r : Range)
    (found : r ∈ scan .gap pos p cs) :
    (∃ r₀, p.last = some r₀ ∧ r = r₀.settle cs) ∨ r.Ahead pos cs := by
  -- Scanning goes on behind whole comments, so the induction is on the length of what is left.
  induction size : cs.length using Nat.strongRecOn generalizing cs pos p with
  | ind n ih =>
    subst size
    cases comment : body? cs with
    | some body =>
      rw [scan_comment comment] at found
      rcases List.mem_append.mp found with settled | found
      · have last : p.last = some r := by
          unfold Pending.settled at settled
          split at settled
          · simpa using settled
          · cases settled
        exact Or.inl ⟨r, last, by simp [Range.settle, breaksLine_comment comment]⟩
      · have whole := body?_append_drop comment
        rcases ih _ (drop_body_shorter comment) _ _ _ (sound.comment ..) found rfl with
          ⟨r₀, last, rfl⟩ | ahead
        · cases collecting : p.collecting with
          | true =>
            have opened : ⟨pos, pos + Text.bytes body, false⟩ = r₀ := by
              simpa [Pending.comment, collecting] using last
            subst opened
            exact Or.inr ⟨[], cs, rfl, by simp [Range.at?, comment, Range.settle, Text.bytes]⟩
          | false =>
            have empty : p.last = none := sound.resolve_left (by simp [collecting])
            simp [Pending.comment, collecting, empty] at last
        · rw [← whole]
          exact Or.inr (ahead.append body)
    | none =>
      cases cs with
      | nil =>
        have last : p.last = some r := by simpa [scan] using found
        exact Or.inl ⟨r, last, by simp [Range.settle, breaksLine]⟩
      | cons c cs =>
        rw [scan_gap_cons comment] at found
        have shorter : cs.length < (c :: cs).length := Nat.lt_succ_self _
        split at found
        · rename_i ends
          rcases ih _ shorter cs _ _ (.lineBreak p) found rfl with ⟨r₀, last, rfl⟩ | ahead
          · obtain ⟨r₁, before, rfl⟩ := Option.map_eq_some_iff.mp last
            exact Or.inl ⟨r₁, before, by simp [Range.settle, breaksLine_lineBreak cs ends]⟩
          · exact Or.inr ahead.cons
        · rename_i runs
          split at found
          · rename_i blank
            have same : breaksLine (c :: cs) = breaksLine cs := by simp [breaksLine, blank]
            rcases ih _ shorter cs _ _ sound found rfl with ⟨r₀, last, rfl⟩ | ahead
            · exact Or.inl ⟨r₀, last, by simp [Range.settle, same]⟩
            · exact Or.inr ahead.cons
          · rename_i visible
            have last : p.last = some r := by simpa using found
            exact Or.inl ⟨r, last, by simp [Range.settle, breaksLine, visible, runs]⟩

/-- Every comment that is reported stands in the text. -/
theorem mem_leading {text : List Char} {pos : Nat} {r : Range} (found : r ∈ leading text pos) :
    r.StandsIn text := by
  unfold leading at found
  split at found
  · split at found
    · have whole : lineText text ++ text.drop (lineText text).length = text :=
        List.prefix_iff_eq_append.mp (lineText_begins text)
      rcases mem_scan _ _ _ (Or.inl rfl) r found with ⟨r₀, last, -⟩ | ahead
      · cases last
      · rw [← Nat.zero_add (Text.bytes _)] at ahead
        have stands : r.Ahead 0 (lineText text ++ text.drop (lineText text).length) :=
          ahead.append (lineText text)
        rwa [whole] at stands
    · rcases mem_scan _ _ _ (Or.inl rfl) r found with ⟨r₀, last, -⟩ | ahead
      · cases last
      · exact ahead
  · split at found
    · rename_i rest behind
      obtain ⟨front, rfl, rfl⟩ := (Text.dropBytes_eq_some_iff _ _ _).mp behind
      rcases mem_scan _ _ _ (Or.inr rfl) r found with ⟨r₀, last, -⟩ | ahead
      · cases last
      · rw [← Nat.zero_add (Text.bytes front)] at ahead
        exact ahead.append front
    · cases found

/-! ## Ranges that stand in a text -/

namespace Range

variable {text : List Char} {r r' : Range}

theorem at?_start {start : Nat} {cs : List Char} (h : Range.at? start cs = some r) :
    r.start = start := by
  obtain ⟨body, -, rfl⟩ := Option.map_eq_some_iff.mp h
  rfl

/-- A range that stands in a text covers a comment, and knows what follows it. -/
theorem StandsIn.parts (h : r.StandsIn text) :
    ∃ front body rest, text = front ++ (body ++ rest) ∧ body? (body ++ rest) = some body ∧
      r = ⟨Text.bytes front, Text.bytes front + Text.bytes body, breaksLine rest⟩ := by
  obtain ⟨front, cs, rfl, stands⟩ := h
  rw [Nat.zero_add] at stands
  obtain ⟨body, comment, rfl⟩ := Option.map_eq_some_iff.mp stands
  have whole := body?_append_drop comment
  refine ⟨front, body, cs.drop body.length, ?_, ?_, rfl⟩
  · rw [whole]
  · rw [whole, comment]

theorem StandsIn.eq_of_start (h : r.StandsIn text) (h' : r'.StandsIn text)
    (same : r.start = r'.start) : r = r' := by
  obtain ⟨front, cs, split, stands⟩ := h
  obtain ⟨front', cs', split', stands'⟩ := h'
  rw [Nat.zero_add] at stands stands'
  have size : Text.bytes front = Text.bytes front' :=
    (at?_start stands).symm.trans (same.trans (at?_start stands'))
  have rests : some cs = some cs' := by
    calc some cs = Text.dropBytes (Text.bytes front) text := by rw [split, Text.dropBytes_append]
      _ = some cs' := by rw [size, split', Text.dropBytes_append]
  have rest : cs = cs' := Option.some.inj rests
  rw [size, rest] at stands
  exact Option.some.inj (stands.symm.trans stands')

theorem text_eq (front body rest : List Char) (endsLine : Bool) :
    (Range.mk (Text.bytes front) (Text.bytes front + Text.bytes body) endsLine).text
        (front ++ (body ++ rest)) = String.ofList body := by
  rw [Range.text, Text.slice_append]

end Range

end Dartify.Comment
