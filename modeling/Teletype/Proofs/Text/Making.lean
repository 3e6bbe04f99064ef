import Mathlib
import Teletype.Proofs.Text.Cutting

/-!
# Making texts

Texts are made of strings, of characters and of texts made before; `append` is how two texts are
joined, be it as a sum or otherwise. Whatever is made in whatever order, `run_sound` says that each
text is well-formed and that nothing aborts: what is copied into a buffer fits there by the type of
`Storage.copy`, and what is sliced is cut between characters. Each making even gives the one text of
its characters (`make_canonical`), so that a text does not tell what it was made of
(`Made.eq_ofChars`).
-/

namespace Teletype.Text

/-- A way to make a text. A number stands for one of the texts made before, in order, and for the
empty text when there are not so many. -/
inductive Making
  | empty
  | ofString (s : String)
  | ofOwned (s : String)
  | ofChar (c : Char)
  | copy (a : Nat)
  | substring (a : Nat) (start : Int32)
  | substringLen (a : Nat) (start len : Int32)
  | append (a b : Nat)
  | join (parts : List String)
  deriving DecidableEq, Repr

namespace Making

/-- Makes a text, given those made before. -/
def make (texts : List Text) : Making → Outcome Text
  | .empty => .ok .empty
  | .ofString s => .ok (.ofString s)
  | .ofOwned s => .ok (.ofOwned s)
  | .ofChar c => .ok (.ofChar c)
  | .copy a => .ok (texts.getD a .empty)
  | .substring a start => (texts.getD a .empty).substring start
  | .substringLen a start len => (texts.getD a .empty).substringLen start len
  | .append a b => .ok ((texts.getD a .empty).append (texts.getD b .empty))
  | .join parts => .ok (.join parts)

/-- Makes texts one after another. Where no text can be made, it goes on without one. -/
def run : List Making → List Text → List (Outcome Text)
  | [], _ => []
  | m :: ms, texts =>
    let outcome := m.make texts
    outcome :: run ms (texts ++ outcome.toOption.toList)

/-- What may become of a making: a well-formed text, or the report that a position is out of
range. -/
inductive Sound : Outcome Text → Prop where
  | made {t} :
    t.WellFormed →
    Sound (.ok t)
  | refused {e} :
    e.kind = .outOfRange →
    Sound (.error (.error e))

/-- What becomes of a making: the text of some characters, or that report. -/
inductive Canonical : Outcome Text → Prop where
  | text (cs : List Char) :
    Canonical (.ok (ofChars cs))
  | refused {e} :
    e.kind = .outOfRange →
    Canonical (.error (.error e))

/-- A text that was made is the text of its characters. -/
lemma Canonical.eq_ofChars {t : Text} (canonical : Canonical (.ok t)) : t = ofChars t.toList := by
  cases canonical with
  | text cs => rw [toList_ofChars]

/-- A text that was made is well-formed. -/
lemma Canonical.wellFormed {t : Text} (canonical : Canonical (.ok t)) : t.WellFormed := by
  cases canonical with
  | text cs => exact wellFormed_ofChars cs

/-- What may become of a making is sound. -/
lemma Canonical.sound {outcome : Outcome Text} (canonical : Canonical outcome) :
    Sound outcome := by
  cases canonical with
  | text cs => exact .made (wellFormed_ofChars cs)
  | refused kind => exact .refused kind

/-- Cutting to the end is such a making. -/
lemma substring_canonical {t : Text} (wf : t.WellFormed) (start : Int32) :
    Canonical (t.substring start) := by
  have cuts := substring_cuts wf start
  generalize h : t.substring start = outcome at cuts ⊢
  cases cuts with
  | rest low high _ =>
    rw [← wf.counted] at high
    rw [← h, substring_eq wf low high]
    exact .text _
  | outside => exact .refused rfl

/-- Cutting to a length is such a making. -/
lemma substringLen_canonical {t : Text} (wf : t.WellFormed) (start len : Int32) :
    Canonical (t.substringLen start len) := by
  have cuts := substringLen_cuts wf start len
  generalize h : t.substringLen start len = outcome at cuts ⊢
  cases cuts with
  | part low some high _ =>
    rw [← wf.counted] at high
    rw [← h, substringLen_eq wf low some high]
    exact .text _
  | before | negative | behind => exact .refused rfl

/-- Every making from texts that were made gives such a text, or the report. -/
lemma make_canonical {texts : List Text} (all : ∀ t ∈ texts, Canonical (.ok t)) (m : Making) :
    Canonical (m.make texts) := by
  have nth : ∀ a, Canonical (.ok (texts.getD a .empty)) := by
    intro a
    -- a number that stands for no text made before stands for the empty one
    rw [List.getD_eq_getElem?_getD]
    cases found : texts[a]? with
    | none => exact .text []
    | some t => exact all t (List.mem_of_getElem? found)
  cases m with
  | empty => exact .text []
  | ofString s =>
    rw [make, ofString_eq]
    exact .text s.toList
  | ofOwned s =>
    rw [make, ofOwned_eq]
    exact .text s.toList
  | ofChar c => exact .text [c]
  | copy a => exact nth a
  | substring a start => exact substring_canonical (nth a).wellFormed start
  | substringLen a start len => exact substringLen_canonical (nth a).wellFormed start len
  | append a b =>
    rw [make, append_eq (nth a).wellFormed (nth b).wellFormed]
    exact .text _
  | join parts =>
    rw [make, join_eq]
    exact .text _

/-- From texts of characters every run goes on to such texts. The texts made so far carry the
induction. -/
lemma run_canonical (ms : List Making) {texts : List Text}
    (all : ∀ t ∈ texts, Canonical (.ok t)) : ∀ outcome ∈ run ms texts, Canonical outcome := by
  induction ms generalizing texts with
  | nil =>
    intro outcome mem
    cases mem
  | cons m ms ih =>
    have canonical := make_canonical all m
    have more : ∀ t ∈ (m.make texts).toOption.toList, Canonical (.ok t) := by
      intro t mem
      generalize m.make texts = outcome at canonical mem
      cases canonical with
      | text cs =>
        obtain rfl := List.mem_singleton.mp mem
        exact .text cs
      | refused => cases mem
    exact List.forall_mem_cons.mpr ⟨canonical, ih (List.forall_mem_append.mpr ⟨all, more⟩)⟩

/-- A run that starts from texts that were made stays sound. -/
lemma run_sound_from (ms : List Making) {texts : List Text}
    (all : ∀ t ∈ texts, Canonical (.ok t)) : ∀ outcome ∈ run ms texts, Sound outcome :=
  fun outcome mem => (run_canonical ms all outcome mem).sound

/-- However texts are made of strings, characters and each other, each is well-formed. The only
failures are positions out of range; nothing aborts. -/
theorem run_sound (ms : List Making) : ∀ outcome ∈ run ms [], Sound outcome := by
  apply run_sound_from
  intro t mem
  cases mem

/-- Two characters cut out across one of two bytes, and a position behind them. -/
theorem run_sound_cut :
    let ms := [.ofString "naïve", .substringLen 0 2 2, .substring 1 3]
    .ok (.ofString "ïv") ∈ run ms [] ∧ Sound (.ok (.ofString "ïv")) := by
  intro ms
  have outcomes : run ms [] = [.ok (.ofString "naïve"), .ok (.ofString "ïv"),
      .error (.error (.outOfRange 3 2))] := rfl
  have mem : .ok (.ofString "ïv") ∈ run ms [] := by
    rw [outcomes]
    simp
  exact ⟨mem, run_sound ms _ mem⟩

end Making

/-- Some run of makings gives the text. -/
def Made (t : Text) : Prop :=
  ∃ ms, .ok t ∈ Making.run ms []

/-- A text that some run gives is the text of some characters. -/
lemma Made.canonical {t : Text} (made : t.Made) : Making.Canonical (.ok t) := by
  obtain ⟨ms, mem⟩ := made
  refine Making.run_canonical ms (fun t none => ?_) _ mem
  cases none

/-- What a text was made of leaves no trace but its characters. -/
lemma Made.eq_ofChars {t : Text} (made : t.Made) : t = ofChars t.toList :=
  made.canonical.eq_ofChars

/-- A text that some run gives is well-formed. -/
lemma Made.wellFormed {t : Text} (made : t.Made) : t.WellFormed :=
  made.canonical.wellFormed

/-- The text of a string is made by a run. -/
lemma made_ofString (s : String) : (ofString s).Made :=
  ⟨[.ofString s], List.mem_singleton.mpr rfl⟩

/-- The texts of two strings put together are made by a run. -/
lemma made_append_ofString (s r : String) : (append (ofString s) (ofString r)).Made := by
  refine ⟨[.ofString s, .ofString r, .append 0 1], ?_⟩
  exact List.mem_cons_of_mem _ (List.mem_cons_of_mem _ (List.mem_singleton.mpr rfl))

/-- The texts of two strings put together are the text of the strings put together. -/
lemma append_ofString (s r : String) : append (ofString s) (ofString r) = ofString (s ++ r) := by
  rw [append_eq (made_ofString s).wellFormed (made_ofString r).wellFormed, ofString_eq, ofString_eq,
    ofString_eq, toList_ofChars, toList_ofChars, String.toList_append]

end Teletype.Text
