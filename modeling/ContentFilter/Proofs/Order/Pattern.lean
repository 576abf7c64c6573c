import ContentFilter.Proofs.Filter.Ordering
/-!
# Segments as matches of a pattern

The grammar of a segment can be given by a pattern: blanks, a name, blanks, perhaps a direction,
and blanks up to the end.  The pattern can match a text in several ways, since the last letters of a
name may also be a direction, with no blanks in between.  A matcher that tracks back finds one of
them: it takes alternatives in the order in which they are written, repeats as often as it can, and
takes back its last decision where it cannot go on.

What is found so is what `OrderBy.Segment.read?` reads without ever taking anything back
(`OrderBy.captures_segmentPattern`).  A name that is cut short leaves a direction only if nothing
but blanks follows, and then the whole name is a match, which is tried earlier.
-/

namespace ContentFilter

/-- Patterns, with labels for what is captured. -/
inductive Pattern (ι : Type) where
  /-- One character of a kind. -/
  | char (p : Char → Bool)
  /-- Characters of a kind, as many as possible. -/
  | star (p : Char → Bool)
  | empty
  /-- The end of the text. -/
  | ending
  | seq (x y : Pattern ι)
  /-- The first pattern, or else the second one. -/
  | alt (x y : Pattern ι)
  /-- A pattern whose match is captured. -/
  | group (label : ι) (x : Pattern ι)

namespace Pattern

variable {ι β : Type} {p : Char → Bool}

/-- What has been captured, the last one in front. -/
abbrev Captures (ι : Type) := List (ι × List Char)

/-- Leave as little as possible of a text behind characters of a kind, so that one can go on. -/
def runStar (p : Char → Bool) (k : List Char → Option β) : List Char → Option β
  | [] => k []
  | c :: r => if p c then (runStar p k r).or (k (c :: r)) else k (c :: r)

/-- Match a pattern at the beginning of a text, so that one can go on with what is left. -/
def run : Pattern ι → Captures ι → List Char → (Captures ι → List Char → Option β) → Option β
  | char p, m, c :: r, k => if p c then k m r else none
  | char _, _, [], _ => none
  | star p, m, cs, k => runStar p (k m) cs
  | empty, m, cs, k => k m cs
  | ending, m, cs, k => if cs.isEmpty then k m cs else none
  | seq x y, m, cs, k => run x m cs fun m cs => run y m cs k
  | alt x y, m, cs, k => (run x m cs k).or (run y m cs k)
  | group label x, m, cs, k =>
    run x m cs fun m rest => k ((label, cs.take (cs.length - rest.length)) :: m) rest

/-- What the first match of a pattern captures. -/
def captures (x : Pattern ι) (cs : List Char) : Option (Captures ι) := x.run [] cs fun m _ => some m

/-- A repetition takes all that it can, unless one can go on only if it takes less. -/
lemma runStar_append {k : List Char → Option β} {cs rest : List Char}
    (hcs : ∀ c ∈ cs, p c = true) (hrest : ∀ c ∈ rest.head?, p c = false)
    (hless : k rest = none → ∀ c s, c :: s <:+ cs → k (c :: s ++ rest) = none) :
    runStar p k (cs ++ rest) = k rest := by
  induction cs with
  | nil =>
    cases rest with
    | nil => rfl
    | cons c r => simp [runStar, hrest c rfl]
  | cons c cs ih =>
    have htail := ih (fun x hx => hcs x (List.mem_cons_of_mem c hx))
      fun hnone x s hs => hless hnone x s (hs.trans (List.suffix_cons c cs))
    rw [List.cons_append, runStar, if_pos (hcs c List.mem_cons_self), htail]
    cases hk : k rest with
    | some b => rfl
    | none => exact hless hk c cs (List.suffix_refl _)

/-- What is left to a repetition where nothing shorter can go on. -/
lemma runStar_eq {k : List Char → Option β} {cs : List Char}
    (hless : k (cs.dropWhile p) = none → ∀ c s, c :: s <:+ cs.takeWhile p →
      k (c :: s ++ cs.dropWhile p) = none) :
    runStar p k cs = k (cs.dropWhile p) := by
  have hwhole := runStar_append (fun c hc => List.mem_takeWhile_imp hc)
    (Text.head?_dropWhile p cs) hless
  rwa [List.takeWhile_append_dropWhile] at hwhole

/-- What is captured is what stands in front of the rest. -/
lemma take_length_sub (cs rest : List Char) :
    (cs ++ rest).take ((cs ++ rest).length - rest.length) = cs := by
  simp

end Pattern

namespace OrderBy

open Text Pattern

variable {β : Type} {cs rest w : List Char}

/-- What a segment is made of. -/
inductive Label where
  | name
  | direction
  /-- The direction is matched by the word for the ascending order. -/
  | ascending
  /-- The direction is matched by the word for the descending order. -/
  | descending
deriving DecidableEq, Repr

/-- A word, up to case. -/
def wordPattern : List Char → Pattern Label
  | [] => .empty
  | x :: w => .seq (.char fun c => foldCase c = x) (wordPattern w)

/-- One of the two directions. -/
def directionPattern : Pattern Label :=
  .group .direction (.alt (.group .ascending (wordPattern "asc".toList))
    (.group .descending (wordPattern "desc".toList)))

/-- A name. -/
def namePattern : Pattern Label := .group .name (.seq (.char isNameStart) (.star isNamePart))

/-- Blanks up to the end. -/
def tailPattern : Pattern Label := .seq (.star isBlank) .ending

/-- Perhaps a direction, and blanks up to the end. -/
def endPattern : Pattern Label := .seq (.alt directionPattern .empty) tailPattern

/-- A segment. -/
def segmentPattern : Pattern Label :=
  .seq (.star isBlank) (.seq namePattern (.seq (.star isBlank) endPattern))

variable {m : Captures Label} {k : Captures Label → List Char → Option β}

lemma run_wordPattern (w : List Char) :
    (wordPattern w).run m cs k =
      if (cs.take w.length).map foldCase = w then k m (cs.drop w.length) else none := by
  induction w generalizing cs with
  | nil => simp [wordPattern, run]
  | cons x w ih =>
    cases cs with
    | nil => simp [wordPattern, run]
    | cons c r =>
      by_cases hc : foldCase c = x
      · simp [wordPattern, run, hc, ih]
      · simp [wordPattern, run, hc]

/-! ## The end of a segment -/

/-- A word and blanks up to the end, with what is captured. -/
def wordAtEnd? (label : Label) (w : List Char) (m : Captures Label) (cs : List Char) :
    Option (Captures Label) :=
  if (cs.take w.length).map foldCase = w ∧ (cs.drop w.length).all isBlank = true then
    some ((.direction, cs.take w.length) :: (label, cs.take w.length) :: m)
  else none

/-- The word in front of the blanks is all that comes before them. -/
lemma wordAtEnd?_eq (label : Label) (hw : w.all Char.isLower = true) :
    wordAtEnd? label w m cs =
      if (cs.takeWhile (!isBlank ·)).map foldCase = w ∧
          (cs.dropWhile (!isBlank ·)).all isBlank = true then
        some ((.direction, cs.takeWhile (!isBlank ·)) ::
          (label, cs.takeWhile (!isBlank ·)) :: m)
      else none := by
  by_cases hend : (cs.take w.length).map foldCase = w ∧ (cs.drop w.length).all isBlank = true
  · have hword : ∀ c ∈ cs.take w.length, (!isBlank c) = true := fun c hc => by
      simp [not_isBlank_of_isNameStart (isNameStart_of_map_foldCase hw hend.1 c hc)]
    have htail : ∀ c ∈ (cs.drop w.length).head?, (!isBlank c) = false := by
      intro c hc
      simp [List.all_eq_true.1 hend.2 c (List.mem_of_mem_head? hc)]
    obtain ⟨htaken, hdropped⟩ := span_append hword htail
    rw [List.take_append_drop] at htaken hdropped
    rw [wordAtEnd?, htaken, hdropped]
  · have hend' : ¬((cs.takeWhile (!isBlank ·)).map foldCase = w ∧
        (cs.dropWhile (!isBlank ·)).all isBlank = true) := by
      rintro ⟨hword, htail⟩
      have hlength : (cs.takeWhile (!isBlank ·)).length = w.length := by
        rw [← hword, List.length_map]
      have hsplit := List.takeWhile_append_dropWhile (p := (!isBlank ·)) (l := cs)
      refine hend ⟨?_, ?_⟩
      · rw [← hsplit, List.take_left' hlength, hword]
      · rw [← hsplit, List.drop_left' hlength, htail]
    rw [wordAtEnd?, if_neg hend, if_neg hend']

lemma run_tailPattern :
    tailPattern.run m cs (fun m _ => some m) = if cs.all isBlank = true then some m else none := by
  have hend : ∀ rest : List Char, (ending : Pattern Label).run m rest (fun m _ => some m) =
      if rest.isEmpty then some m else none := fun _ => rfl
  rw [tailPattern, run, run, runStar_eq fun _ c s _ => by simp [hend], hend]
  simp [List.dropWhile_eq_nil_iff]

/-- A segment ends with one of the directions, or with nothing but blanks. -/
lemma run_endPattern :
    endPattern.run m cs (fun m _ => some m) =
      ((wordAtEnd? .ascending "asc".toList m cs).or (wordAtEnd? .descending "desc".toList m cs)).or
        (if cs.all isBlank = true then some m else none) := by
  have hword : ∀ (label : Label) (w : List Char) (m : Captures Label),
      (group label (wordPattern w)).run m cs (fun m rest =>
        tailPattern.run ((.direction, cs.take (cs.length - rest.length)) :: m) rest
          fun m _ => some m) = wordAtEnd? label w m cs := by
    intro label w m
    rw [run, run_wordPattern]
    by_cases hw : (cs.take w.length).map foldCase = w
    · have htaken := take_length_sub (cs.take w.length) (cs.drop w.length)
      rw [List.take_append_drop] at htaken
      rw [if_pos hw, run_tailPattern, htaken, wordAtEnd?]
      simp [hw]
    · rw [if_neg hw, wordAtEnd?, if_neg fun h => hw h.1]
  rw [endPattern, run, run, directionPattern, run, run, run, hword, hword, run_tailPattern]

/-- No direction begins with a blank. -/
lemma run_endPattern_blank {c : Char} (hc : isBlank c = true) :
    endPattern.run m (c :: cs) (fun m _ => some m) =
      if (c :: cs).all isBlank = true then some m else none := by
  have hword : ∀ (label : Label) (w : List Char), w.all Char.isLower = true → w ≠ [] →
      wordAtEnd? label w m (c :: cs) = none := by
    intro label w hw hne
    rw [wordAtEnd?_eq label hw, if_neg]
    rintro ⟨hnil, -⟩
    simp [hc, hne.symm] at hnil
  rw [run_endPattern, hword .ascending _ (by decide) (by decide),
    hword .descending _ (by decide) (by decide)]
  rfl

/-- The blanks behind a name are taken before one looks for a direction. -/
lemma run_gap :
    (seq (.star isBlank) endPattern).run m cs (fun m _ => some m) =
      endPattern.run m (cs.dropWhile isBlank) fun m _ => some m := by
  rw [run, run, runStar_eq]
  intro hnone c s hs
  have hblank : isBlank c = true := List.mem_takeWhile_imp (hs.subset List.mem_cons_self)
  rw [List.cons_append, run_endPattern_blank hblank, if_neg]
  -- if all that is left were blank, there would be an end behind the blanks
  intro hall
  have hrest : (cs.dropWhile isBlank).all isBlank = true := by
    rw [List.all_cons, List.all_append, Bool.and_eq_true, Bool.and_eq_true] at hall
    exact hall.2.2
  simp [run_endPattern, hrest] at hnone

/-! ## Names -/

/-- If a name can be cut short so that an end follows, nothing but blanks is behind the name. -/
lemma all_isBlank_of_run_endPattern {cut : List Char} (hne : cut ≠ [])
    (hcut : ∀ c ∈ cut, isNamePart c = true) (hrest : ∀ c ∈ rest.head?, isNamePart c = false)
    (hend : endPattern.run m (cut ++ rest) (fun m _ => some m) ≠ none) :
    rest.all isBlank = true := by
  obtain ⟨c, cut, rfl⟩ := List.exists_cons_of_ne_nil hne
  -- the direction ends where the name does, as its letters are those of names and blanks are not
  have hword : ∀ (label : Label) (w : List Char), w.all Char.isLower = true →
      wordAtEnd? label w m (c :: cut ++ rest) ≠ none → rest.all isBlank = true := by
    intro label w hw hend
    obtain ⟨hword, htail⟩ := (ite_ne_right_iff.1 hend).1
    have hpart : ∀ x ∈ (c :: cut ++ rest).take w.length, isNamePart x = true := fun x hx => by
      simp [isNamePart, isNameStart_of_map_foldCase hw hword x hx]
    have hbehind : ∀ x ∈ ((c :: cut ++ rest).drop w.length).head?, isNamePart x = false :=
      fun x hx => not_isNamePart_of_isBlank (List.all_eq_true.1 htail x (List.mem_of_mem_head? hx))
    have hdropped := (span_append hpart hbehind).2
    rw [List.take_append_drop, (span_append hcut hrest).2] at hdropped
    rwa [hdropped]
  by_contra hblank
  have hc : isBlank c = false := not_isBlank_of_isNamePart (hcut c List.mem_cons_self)
  have hascending := not_imp_comm.1 (hword .ascending "asc".toList (by decide)) hblank
  have hdescending := not_imp_comm.1 (hword .descending "desc".toList (by decide)) hblank
  rw [ne_eq, run_endPattern, hascending, hdescending] at hend
  simp [hc] at hend

/-- A name is never cut short. -/
lemma run_namePattern {c : Char} {r : List Char} (hc : isNameStart c = true) :
    namePattern.run m (c :: r) (fun m rest =>
      (seq (.star isBlank) endPattern).run m rest fun m _ => some m) =
      endPattern.run ((.name, c :: r.takeWhile isNamePart) :: m)
        ((r.dropWhile isNamePart).dropWhile isBlank) fun m _ => some m := by
  have hname := take_length_sub (c :: r.takeWhile isNamePart) (r.dropWhile isNamePart)
  rw [List.cons_append, List.takeWhile_append_dropWhile] at hname
  rw [namePattern, run, run, run, if_pos hc, run, runStar_eq, hname, run_gap]
  intro hnone x s hs
  rw [run_gap] at hnone ⊢
  have hcut : ∀ y ∈ x :: s, isNamePart y = true := fun y hy =>
    List.mem_takeWhile_imp (hs.subset hy)
  rw [List.cons_append, List.dropWhile_cons_of_neg
    (by simp [not_isBlank_of_isNamePart (hcut x List.mem_cons_self)]), ← List.cons_append]
  by_contra hend
  have hblank := all_isBlank_of_run_endPattern (by simp) hcut (head?_dropWhile isNamePart r) hend
  rw [List.dropWhile_eq_nil_iff.2 (List.all_eq_true.1 hblank), run_endPattern] at hnone
  simp at hnone

/-! ## Segments -/

/-- What is captured of a segment. -/
def Segment.captures (s : Segment) : Captures Label :=
  match s.direction with
  | none => [(.name, s.name)]
  | some word =>
    [(.direction, word),
      (if word.map foldCase = "asc".toList then .ascending else .descending, word),
      (.name, s.name)]

/-- What is read behind a name and blanks. -/
lemma run_endPattern_eq (name : List Char) (hhead : ∀ c ∈ cs.head?, isBlank c = false) :
    endPattern.run [(.name, name)] cs (fun m _ => some m) =
      (if cs.isEmpty then some ⟨name, none⟩
      else if isDirection (cs.takeWhile (!isBlank ·)) &&
          (cs.dropWhile (!isBlank ·)).all isBlank then
        some ⟨name, some (cs.takeWhile (!isBlank ·))⟩
      else none : Option Segment).map Segment.captures := by
  cases cs with
  | nil => simp [run_endPattern, wordAtEnd?, Segment.captures]
  | cons c r =>
    have hc : ((c :: r).all isBlank) = false := by simp [hhead c rfl]
    rw [run_endPattern, wordAtEnd?_eq _ (by decide), wordAtEnd?_eq _ (by decide), hc]
    generalize (c :: r).takeWhile (!isBlank ·) = word
    generalize (c :: r).dropWhile (!isBlank ·) = tail
    by_cases htail : tail.all isBlank = true
    · by_cases hasc : word.map foldCase = "asc".toList
      · simp [isDirection, htail, hasc, Segment.captures]
      · by_cases hdesc : word.map foldCase = "desc".toList
        · simp [isDirection, htail, hdesc, Segment.captures]
        · have hword : isDirection word = false := by
            simp only [isDirection, hasc, hdesc, decide_false, Bool.or_self]
          rw [if_neg fun h => hasc h.1, if_neg fun h => hdesc h.1, hword]
          simp
    · simp [htail]

/-- A segment is read as the first match of the pattern of segments. -/
theorem captures_segmentPattern (cs : List Char) :
    segmentPattern.captures cs = (Segment.read? cs).map Segment.captures := by
  have hforeign : ∀ {c : Char} {r : List Char}, isNameStart c = false →
      namePattern.run [] (c :: r) (fun m rest =>
        (seq (.star isBlank) endPattern).run m rest fun m _ => some m) = none := by
    intro c r hc
    simp [namePattern, run, hc]
  have hblanks : segmentPattern.captures cs = namePattern.run [] (cs.dropWhile isBlank)
      (fun m rest => (seq (.star isBlank) endPattern).run m rest fun m _ => some m) := by
    rw [Pattern.captures, segmentPattern, run, run, runStar_eq]
    · rfl
    · intro _ c s hs
      have hblank : isBlank c = true := List.mem_takeWhile_imp (hs.subset List.mem_cons_self)
      refine hforeign (by_contra fun hc => ?_)
      rw [not_isBlank_of_isNameStart (by simpa using hc)] at hblank
      cases hblank
  rw [hblanks, Segment.read?]
  cases cs.dropWhile isBlank with
  | nil => simp [namePattern, run]
  | cons c r =>
    by_cases hc : isNameStart c = true
    · have hpart : isNamePart c = true := by simp [isNamePart, hc]
      have hany : (c :: r).head?.any isNameStart = true := hc
      rw [run_namePattern hc, run_endPattern_eq _ (head?_dropWhile isBlank _), if_pos hany,
        List.takeWhile_cons_of_pos hpart, List.dropWhile_cons_of_pos hpart]
    · rw [hforeign (by simpa using hc), if_neg (by simpa using hc)]
      rfl

end OrderBy
end ContentFilter
