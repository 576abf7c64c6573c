import ContentFilter.Proofs.Sql.PathText
import ContentFilter.Proofs.Token.Identifier
/-!
# The places that JSON paths lead to

A place in the content of a node is given by the keys that lead to it, and perhaps by a wildcard
behind them (`Address`).  `JsonPath.readAddress` reads the text of a JSON path as such a place: the
keys behind the dots, plain or in double quotes, and the wildcard at the end.  It stops where the
path ends, as a path may have a comparison or a filter behind it.

The path of a field is read as the place of the field (`JsonPath.readAddress_ofField`).
-/

namespace ContentFilter

/-- A place in the content of a node. -/
structure Address where
  /-- The keys that lead to a value. -/
  keys : List String
  /-- Whether the place is all members or elements of this value. -/
  wildcard : Option Wildcard
deriving DecidableEq, Repr

namespace FieldPath

/-- The place of the value of a field, or of what its wildcard stands for. -/
def address (f : FieldPath) : Address := ⟨f.keys, f.wildcard⟩

/-- The place of the value of a field, or of the object or array that its wildcard ranges over. -/
def container (f : FieldPath) : Address := ⟨f.keys, none⟩

lemma address_eq_container {f : FieldPath} (h : f.wildcard = none) : f.address = f.container := by
  rw [address, container, h]

lemma isPlain_iff {f : FieldPath} : f.isPlain = true ↔ f.segments = [] ∧ f.wildcard = none := by
  rw [isPlain, Bool.and_eq_true, List.isEmpty_iff, Option.isNone_iff_eq_none]

/-- A path is determined by its place. -/
lemma address_injective {f g : FieldPath} (h : f.address = g.address) : f = g := by
  obtain ⟨hkeys, hwildcard⟩ := Address.mk.inj h
  obtain ⟨hname, hbehind⟩ := List.cons.inj hkeys
  obtain ⟨-, hsegments⟩ := List.cons.inj hbehind
  cases f
  cases g
  exact congr (congrArg₂ mk hname hsegments) hwildcard

end FieldPath

namespace JsonPath

/-! ## Reading -/

/-- The characters of keys that stand without quotes. -/
def isPlainChar (c : Char) : Bool := c.isAlphanum || c = '_'

/-- The plain name that a text begins with, and what follows it. -/
def readName (cs : List Char) : Option (String × List Char) :=
  if Text.isPlainName (cs.takeWhile isPlainChar) then
    some (String.ofList (cs.takeWhile isPlainChar), cs.dropWhile isPlainChar)
  else none

/-- The key that a text begins with, plain or in double quotes, and what follows it. -/
def readKey : List Char → Option (String × List Char)
  | '"' :: r => (stringBody r).map fun p => (String.ofList p.1, p.2)
  | cs => readName cs

lemma length_stringBody {cs : List Char} {p : List Char × List Char}
    (h : stringBody cs = some p) : p.2.length < cs.length := by
  fun_induction stringBody cs generalizing p with
  | case1 => cases h
  | case2 r =>
    obtain rfl := Option.some.inj h
    exact Nat.lt_succ_self _
  | case3 => cases h
  | case4 e r ih =>
    obtain ⟨c, -, h⟩ := Option.bind_eq_some_iff.1 h
    obtain ⟨q, hq, rfl⟩ := Option.map_eq_some_iff.1 h
    exact (ih hq).trans (by rw [List.length_cons, List.length_cons]; omega)
  | case5 c r _ _ _ ih =>
    obtain ⟨q, hq, rfl⟩ := Option.map_eq_some_iff.1 h
    exact (ih hq).trans (by simp)

lemma length_readKey {cs r : List Char} {k : String} (h : readKey cs = some (k, r)) :
    r.length ≤ cs.length := by
  unfold readKey at h
  split at h
  · obtain ⟨p, hp, heq⟩ := Option.map_eq_some_iff.1 h
    obtain ⟨-, rfl⟩ := Prod.mk.inj heq
    exact (length_stringBody hp).le.trans (by simp)
  · unfold readName at h
    split at h
    · obtain ⟨-, rfl⟩ := Prod.mk.inj (Option.some.inj h)
      exact (List.dropWhile_suffix _).length_le
    · cases h

/-- The keys and the wildcard that a text begins with, and what follows them. -/
def readSteps : List Char → Address × List Char
  | '.' :: '*' :: r => (⟨[], some .any⟩, r)
  | '[' :: '*' :: ']' :: r => (⟨[], some .element⟩, r)
  | '.' :: r =>
    match _h : readKey r with
    | some (k, r') =>
      let (a, rest) := readSteps r'
      (⟨k :: a.keys, a.wildcard⟩, rest)
    | none => (⟨[], none⟩, '.' :: r)
  | r => (⟨[], none⟩, r)
termination_by cs => cs.length
decreasing_by exact Nat.lt_succ_of_le (length_readKey _h)

/-- The place that the path at the head of a text leads to, and what follows the path. -/
def readAddress : List Char → Option (Address × List Char)
  | '$' :: r => some (readSteps r)
  | _ => none

/-! ## Reading what is written -/

variable {k : String} {keys : List String} {r : List Char}

/-- No plain key goes on with the text. -/
def Stops (cs : List Char) : Prop := ∀ c ∈ cs.head?, isPlainChar c = false

/-- No path goes on with the text: it is empty or begins with a space. -/
def Ended (cs : List Char) : Prop := ∀ c ∈ cs.head?, c = ' '

lemma ended_nil : Ended [] := by simp [Ended]

lemma stops_cons {c : Char} (h : isPlainChar c = false) (cs : List Char) : Stops (c :: cs) := by
  simpa [Stops] using h

lemma stops_wildcard (w : Option Wildcard) (h : Ended r) : Stops ((wildcard w).toList ++ r) := by
  cases w with
  | none =>
    intro c hc
    rw [h c hc]
    decide
  | some w => cases w <;> exact stops_cons (by decide) _

/-- A plain name is read up to where it ends. -/
lemma readKey_plain {k : List Char} (hk : Text.isPlainName k = true) (hr : Stops r) :
    readKey (k ++ r) = some (String.ofList k, r) := by
  cases k with
  | nil => cases hk
  | cons c k =>
    have hplain := hk
    rw [Text.isPlainName, Bool.and_eq_true, List.all_eq_true] at hplain
    obtain ⟨hc, hchars⟩ := hplain
    obtain ⟨htaken, hdropped⟩ := Text.span_append (p := isPlainChar) hchars hr
    have hquote : ∀ r', c :: k ++ r ≠ '"' :: r' := by
      intro r' heq
      obtain rfl := (List.cons.inj heq).1
      revert hc
      decide
    rw [readKey, readName, htaken, hdropped, if_pos hk]
    exact hquote

/-- A name or a segment of a field is read back. -/
lemma readKey_key (hk : FieldPath.isSegment k.toList = true)
    (hr : Stops r) : readKey ((key k).toList ++ r) = some (k, r) := by
  unfold key
  split
  · next hplain => rw [readKey_plain hplain hr, String.ofList_toList]
  · rw [toList_quoted, List.cons_append, List.append_assoc, List.singleton_append, readKey,
      stringBody_plain (ne_quote_of_isSegment hk), Option.map_some, String.ofList_toList]

/-- No key begins with an asterisk. -/
lemma head?_key (hk : FieldPath.isSegment k.toList = true) (r : List Char) :
    ((key k).toList ++ r).head? ≠ some '*' := by
  unfold key
  split
  · next hplain =>
    cases hcs : k.toList with
    | nil =>
      rw [hcs] at hk
      cases hk
    | cons c cs =>
      intro heq
      obtain rfl : c = '*' := by simpa using heq
      simp [hcs, Text.isPlainName] at hplain
  · rw [toList_quoted]
    simp

lemma readSteps_key (hk : FieldPath.isSegment k.toList = true) (hr : Stops r) :
    readSteps ('.' :: ((key k).toList ++ r)) =
      (⟨k :: (readSteps r).1.keys, (readSteps r).1.wildcard⟩, (readSteps r).2) := by
  rw [readSteps]
  · split
    · next k' r' h =>
      rw [readKey_key hk hr] at h
      obtain ⟨rfl, rfl⟩ := Prod.mk.inj (Option.some.inj h)
      rfl
    · next h =>
      rw [readKey_key hk hr] at h
      cases h
  · intro r' heq
    exact head?_key hk r (by rw [heq]; rfl)

/-- The wildcard at the end of a path is read, and nothing behind it. -/
lemma readSteps_wildcard (w : Option Wildcard) (h : Ended r) :
    readSteps ((wildcard w).toList ++ r) = (⟨[], w⟩, r) := by
  cases w with
  | none =>
    cases r with
    | nil => simp [wildcard, readSteps]
    | cons c r =>
      obtain rfl : c = ' ' := h c rfl
      simp [wildcard, readSteps]
  | some w => cases w <;> simp [wildcard, readSteps]

/-- The keys and the wildcard of a path are read, and nothing behind it. -/
lemma readSteps_append (hkeys : ∀ k ∈ keys, FieldPath.isSegment k.toList = true)
    (w : Option Wildcard) (h : Ended r) :
    readSteps ((keys.flatMap fun k => '.' :: (key k).toList) ++ ((wildcard w).toList ++ r)) =
      (⟨keys, w⟩, r) := by
  induction keys with
  | nil => exact readSteps_wildcard w h
  | cons k keys ih =>
    obtain ⟨hk, hkeys⟩ := List.forall_mem_cons.1 hkeys
    have hstops : Stops ((keys.flatMap fun k => '.' :: (key k).toList) ++
        ((wildcard w).toList ++ r)) := by
      cases keys with
      | nil => exact stops_wildcard w h
      | cons l keys => exact stops_cons (by decide) _
    rw [List.flatMap_cons, List.cons_append, List.cons_append, List.append_assoc,
      readSteps_key hk hstops, ih hkeys]

/-- The path along some keys is read as the place behind them. -/
lemma readAddress_along (hkeys : ∀ k ∈ keys, FieldPath.isSegment k.toList = true)
    (w : Option Wildcard) (h : Ended r) :
    readAddress ((along keys).toList ++ ((wildcard w).toList ++ r)) = some (⟨keys, w⟩, r) := by
  rw [toList_along, List.cons_append, readAddress, readSteps_append hkeys w h]

/-- The path of a field is read as the place of the field, also in front of a predicate. -/
theorem readAddress_ofField {f : FieldPath} (hf : f.WellFormed) (h : Ended r) :
    readAddress ((ofField f).toList ++ r) = some (f.address, r) := by
  rw [ofField, String.toList_append, List.append_assoc]
  exact readAddress_along hf.isSegment_keys f.wildcard h

end JsonPath
end ContentFilter
