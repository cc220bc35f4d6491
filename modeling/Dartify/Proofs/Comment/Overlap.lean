import Mathlib.Data.List.Pairwise
import Mathlib.Logic.Relation
import Dartify.Proofs.Comment.Items

/-! Scans of one text from different offsets. Main statement: where scanning from an offset stands
between two items, the comments found from there are the last of those found from the offset, and
wherever scanning begins, a comment is known by its start. -/
namespace Dartify.Comment

open Relation

/-! ## From item to item -/

/-- The scanner between two items: where it stands, what it carries, and the text ahead of it. -/
structure Head where
  pos : Nat
  pending : Pending
  ahead : List Char

namespace Head

/-- Where scanning from an offset begins: behind the interpreter line that is passed over, if any.
Inside a character or past the end nothing is ahead. -/
def first (text : List Char) (pos : Nat) : Head :=
  let ahead := (Text.dropBytes pos text).getD []
  let line := passedOver pos ahead
  ⟨pos + Text.bytes line, ⟨decide (pos = 0), none⟩, ahead.drop line.length⟩

/-- What is found from here on, the comment that is carried included. -/
def found (h : Head) : List Range := scan .gap h.pos h.pending h.ahead

inductive Step : Head → Head → Prop
  | pass {item : Item} {behind : List Char} (stands : item.Stands behind) (pos : Nat)
      (p : Pending) :
      Step ⟨pos, p, item.text ++ behind⟩
        ⟨pos + Text.bytes item.text, p.pass pos item, behind⟩

/-- What is ahead is the text from here on, and no comment is carried before comments count. -/
structure On (text : List Char) (h : Head) : Prop where
  ahead : h.ahead = (Text.dropBytes h.pos text).getD []
  sound : h.pending.Sound

variable {text : List Char} {h h' : Head}

theorem On.first (text : List Char) (pos : Nat) : (first text pos).On text where
  sound := .inr rfl
  ahead := by
    unfold Head.first
    cases behind : Text.dropBytes pos text with
    | none =>
      have line : passedOver pos [] = [] := by simp [passedOver, startsInterpreterLine]
      simp [line, Text.bytes, behind]
    | some ahead =>
      rw [← passedOver_append pos ahead] at behind
      simp [Text.dropBytes_further behind]

theorem found_first (text : List Char) (pos : Nat) : (first text pos).found = leading text pos := by
  unfold first found
  cases behind : Text.dropBytes pos text with
  | none =>
    have inside : pos ≠ 0 := by
      rintro rfl
      cases text <;> cases behind
    simp [leading, inside, behind, scan]
  | some ahead =>
    obtain ⟨front, rfl, rfl⟩ := (Text.dropBytes_eq_some_iff _ _ _).mp behind
    simp [leading_eq_scan, Text.bytes_append]

theorem Step.on (step : Step h h') (on : h.On text) : h'.On text := by
  obtain ⟨ahead, sound⟩ := on
  cases step with
  | @pass item behind stands pos p =>
    refine ⟨?_, sound.pass pos item⟩
    cases rest : Text.dropBytes pos text with
    | none => simp [rest, stands.text_ne_nil] at ahead
    | some cs =>
      obtain rfl : item.text ++ behind = cs := by simpa [rest] using ahead
      simp [Text.dropBytes_further rest]

theorem Step.suffix (step : Step h h') : h'.found <:+ h.found := by
  cases step with
  | pass stands pos p => exact ⟨_, (scan_item stands pos p).symm⟩

/-- The scanner goes on as long as there is an item to pass. -/
theorem found_of_no_step (stuck : ∀ h', ¬ Step h h') : h.found = h.pending.last.toList := by
  obtain ⟨pos, p, ahead⟩ := h
  refine (scan_no_item (fun item rest split stands => ?_) pos p).1
  subst split
  exact stuck _ (.pass stands pos p)

theorem Step.pos_le (step : Step h h') : h.pos ≤ h'.pos := by
  cases step with
  | pass => exact Nat.le_add_right ..

theorem On.run (on : h.On text) (way : ReflTransGen Step h h') :
    h'.On text ∧ h'.found <:+ h.found ∧ h.pos ≤ h'.pos := by
  induction way with
  | refl => exact ⟨on, List.suffix_rfl, Nat.le_refl _⟩
  | tail _ step ih =>
    obtain ⟨on, later, onward⟩ := ih
    exact ⟨step.on on, step.suffix.trans later, onward.trans step.pos_le⟩

end Head

/-- Scanning from an offset comes by another one between two items. -/
def Passes (text : List Char) (pos other : Nat) : Prop :=
  ∃ h, ReflTransGen Head.Step (Head.first text pos) h ∧ h.pos = other

/-! ## Two scans -/

theorem ranges_suffix (start : Nat) (counts : Bool) (items : List Item) (rest : List Char) :
    ranges start false items rest <:+ ranges start counts items rest := by
  induction items generalizing start counts with
  | nil => exact List.suffix_rfl
  | cons item items ih =>
    have later : ranges (start + Text.bytes item.text) (false || item.isLineBreak) items rest <:+
        ranges (start + Text.bytes item.text) (counts || item.isLineBreak) items rest := by
      cases item.isLineBreak with
      | true => simp only [Bool.or_true, List.suffix_rfl]
      | false => exact ih ..
    simp only [ranges, Bool.false_and, Bool.false_eq_true, if_false]
    split
    · exact later.trans (List.suffix_cons ..)
    · exact later

/-- A scan that begins anew finds the last of the comments that are found otherwise. -/
theorem scan_suffix (cs : List Char) (pos : Nat) {p : Pending} (sound : p.Sound) :
    scan .gap pos ⟨false, none⟩ cs <:+ scan .gap pos p cs := by
  obtain ⟨items, rest, run⟩ := exists_trivia cs
  rw [scan_trivia run pos p sound, scan_trivia run pos _ (.inr rfl)]
  exact (ranges_suffix ..).trans (List.suffix_append ..)

theorem pairwise_leading (text : List Char) (pos : Nat) :
    (leading text pos).Pairwise (·.stop ≤ ·.start) := by
  obtain ⟨items, rest, run⟩ := exists_trivia (Head.first text pos).ahead
  rw [← Head.found_first, Head.found, scan_trivia run _ _ (Head.On.first text pos).sound]
  exact pairwise_ranges ..

theorem Passes.suffix {text : List Char} {pos other : Nat} (passes : Passes text pos other) :
    leading text other <:+ leading text pos := by
  obtain ⟨h, way, rfl⟩ := passes
  obtain ⟨on, later, onward⟩ := (Head.On.first text pos).run way
  -- At the start comments count and an interpreter line is passed over: nothing begins anew there.
  by_cases start : h.pos = 0
  · obtain rfl : pos = 0 := by
      have behind : pos ≤ (Head.first text pos).pos := Nat.le_add_right ..
      omega
    simp only [start, List.suffix_rfl]
  · have anew : Head.first text h.pos = ⟨h.pos, ⟨false, none⟩, h.ahead⟩ := by
      simp [Head.first, passedOver, start, Text.bytes, on.ahead]
    rw [← Head.found_first text pos, ← Head.found_first text h.pos, anew]
    exact (scan_suffix h.ahead h.pos on.sound).trans later

/-- Where scanning comes by another offset between two items, what is found from there ends what is
found in all, with the same ends and the same marks of a line break, and ranges that share a byte
are the same. From whichever offsets two comments of a text are found, they are the same if they
begin at the same byte. -/
theorem leading_suffix {text : List Char} {pos other : Nat} (passes : Passes text pos other) :
    leading text other <:+ leading text pos ∧
      (∀ r ∈ leading text pos, ∀ r' ∈ leading text other,
        r.start < r'.stop → r'.start < r.stop → r = r') ∧
      ∀ m n, ∀ r ∈ leading text m, ∀ r' ∈ leading text n, r.start = r'.start → r = r' := by
  refine ⟨passes.suffix, ?_, ?_⟩
  · intro r mem r' mem' before behind
    by_contra other
    -- Stated so that it does not matter which of the two comes first.
    have apart : (leading text pos).Pairwise fun r r' => r.stop ≤ r'.start ∨ r'.stop ≤ r.start :=
      (pairwise_leading text pos).imp .inl
    have symm : Std.Symm fun r r' : Range => r.stop ≤ r'.start ∨ r'.stop ≤ r.start :=
      ⟨fun _ _ => Or.symm⟩
    have far := apart.forall mem (passes.suffix.mem mem') other
    omega
  · intro m n r mem r' mem' same
    exact (mem_leading mem).eq_of_start (mem_leading mem') same

def interpreted : List Char := "#!x\n/* a */ // b\n// c\ny".toList

theorem leading_suffix_interpreted :
    Passes interpreted 0 11 ∧
      leading interpreted 0 = [⟨4, 11, false⟩, ⟨12, 16, true⟩, ⟨17, 21, true⟩] ∧
      leading interpreted 11 = [⟨17, 21, true⟩] ∧
      leading interpreted 11 <:+ leading interpreted 0 ∧
      (∀ r ∈ leading interpreted 0, ∀ r' ∈ leading interpreted 11,
        r.start < r'.stop → r'.start < r.stop → r = r') ∧
      ∀ m n, ∀ r ∈ leading interpreted m, ∀ r' ∈ leading interpreted n,
        r.start = r'.start → r = r' := by
  have feed : Head.Step (.first interpreted 0) ⟨4, ⟨true, none⟩, interpreted.drop 4⟩ :=
    .pass (.lineBreak (c := '\n') rfl nofun) 3 ⟨true, none⟩
  have comment : Head.Step ⟨4, ⟨true, none⟩, interpreted.drop 4⟩
      ⟨11, ⟨true, some ⟨4, 11, false⟩⟩, interpreted.drop 11⟩ :=
    .pass (@Item.Stands.block [' ', 'a', ' '] _ (by decide)) 4 ⟨true, none⟩
  have passes : Passes interpreted 0 11 := ⟨_, .tail (.single feed) comment, rfl⟩
  exact ⟨passes, by decide, by decide, leading_suffix passes⟩

end Dartify.Comment
