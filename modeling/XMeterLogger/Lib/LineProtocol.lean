import XMeterLogger.Lib.Decimal

/-! The line protocol of the time-series server: points separated by newlines, a
measurement ended by the first unescaped comma or space, an optional tag set, and
comma-separated numeric fields. -/
namespace XMeterLogger.LineProtocol

open XMeterLogger.Decimal

def newline : UInt8 := 0x0A
def space : UInt8 := 0x20
def hash : UInt8 := 0x23
def comma : UInt8 := 0x2C
def equals : UInt8 := 0x3D
def backslash : UInt8 := 0x5C

structure Point where
  measurement : Bytes
  tags : List (Bytes × Bytes)
  fields : List (Bytes × ℚ)
  deriving DecidableEq

def endsName (b : UInt8) : Bool := b == comma || b == space
def endsKey (b : UInt8) : Bool := endsName b || b == equals

/-- The bytes in front of the first stopping byte not preceded by a backslash,
and the rest from that byte on. -/
def cut (stops : UInt8 → Bool) (escaped : Bool) : Bytes → Bytes × Bytes
  | [] => ([], [])
  | b :: rest =>
    if stops b && !escaped then ([], b :: rest)
    else (b :: (cut stops (b == backslash) rest).1, (cut stops (b == backslash) rest).2)

/-- All the pieces between such stopping bytes. -/
def pieces (stops : UInt8 → Bool) (escaped : Bool) : Bytes → List Bytes
  | [] => [[]]
  | b :: rest =>
    if stops b && !escaped then [] :: pieces stops false rest
    else match pieces stops (b == backslash) rest with
      | [] => [[b]]
      | piece :: others => (b :: piece) :: others

/-- Drops each backslash in front of a special byte. -/
def unescape (special : UInt8 → Bool) : Bytes → Bytes
  | [] => []
  | b :: rest =>
    if b == backslash && rest.head?.any special then unescape special rest
    else b :: unescape special rest

def parsePair (text : Bytes) : Option (Bytes × Bytes) :=
  match cut endsKey false text with
  | (_, []) => none
  | (key, stop :: value) =>
    if stop = equals ∧ key ≠ [] ∧ value ≠ [] then some (unescape endsKey key, value) else none

def parseTag (text : Bytes) : Option (Bytes × Bytes) :=
  (parsePair text).map fun (key, value) => (key, unescape endsKey value)

/-- Field values are finite decimal numbers. -/
def parseField (text : Bytes) : Option (Bytes × ℚ) := do
  let (key, value) ← parsePair text
  let number ← parseNumber value
  return (key, number)

def parseFields (text : Bytes) : Option (List (Bytes × ℚ)) :=
  (pieces (· == comma) false text).mapM parseField

def parseLine (line : Bytes) : Option Point :=
  match cut endsName false line with
  | ([], _) => none
  | (_ :: _, []) => none
  | (b :: name, stop :: rest) =>
    if stop = space then do
      let fields ← parseFields rest
      return ⟨unescape endsName (b :: name), [], fields⟩
    else
      match cut (· == space) false rest with
      | (_, []) => none
      | (tagText, _ :: fieldText) => do
        let tags ← (pieces (· == comma) false tagText).mapM parseTag
        let fields ← parseFields fieldText
        return ⟨unescape endsName (b :: name), tags, fields⟩

/-- Blank lines carry no point, nor do comments where the server has them. -/
def significant (comments : Bool) (line : Bytes) : Bool :=
  line != [] && !(comments && line.head? == some hash)

def parseBody (comments : Bool) (body : Bytes) : Option (List Point) :=
  ((body.splitOn newline).filter (significant comments)).mapM parseLine

/-- A measurement that stands for itself: no separator inside, no backslash that
would escape the separator after it, and no comment mark in front. -/
structure PlainName (comments : Bool) (name : Bytes) : Prop where
  separators : ∀ b ∈ name, endsName b = false
  ending : name.getLast? ≠ some backslash
  start : comments = true → name.head? ≠ some hash

/-- Whether a backslash stands right before the byte after `text`. -/
def escapes (escaped : Bool) (text : Bytes) : Bool :=
  match text.getLast? with
  | none => escaped
  | some b => b == backslash

section Cutting

variable {stops : UInt8 → Bool}

theorem escapes_cons (escaped : Bool) (b : UInt8) (rest : Bytes) :
    escapes escaped (b :: rest) = escapes (b == backslash) rest := by
  cases rest with
  | nil => rfl
  | cons c rest =>
    obtain ⟨last, h⟩ : ∃ last, (c :: rest).getLast? = some last :=
      ⟨_, List.getLast?_eq_some_getLast (by simp)⟩
    simp only [escapes, List.getLast?_cons_cons, h]

/-- A cut of a concatenation stops in the first part or goes on through it. -/
theorem cut_append (escaped : Bool) (text tail : Bytes) :
    (cut stops escaped (text ++ tail)).1.length < text.length ∨
    (cut stops escaped text = (text, []) ∧ cut stops escaped (text ++ tail) =
      (text ++ (cut stops (escapes escaped text) tail).1,
        (cut stops (escapes escaped text) tail).2)) := by
  induction text generalizing escaped with
  | nil =>
    right
    exact ⟨rfl, rfl⟩
  | cons b rest ih =>
    by_cases stop : (stops b && !escaped) = true
    · left
      simp [cut, stop]
    · have next := ih (b == backslash)
      rw [escapes_cons]
      simp only [List.cons_append, cut, stop, Bool.false_eq_true, ↓reduceIte, List.length_cons]
      rcases next with shorter | ⟨whole, through⟩
      · left
        omega
      · right
        simp [whole, through]

/-- A clean text is cut at the unescaped stopping byte after it. -/
theorem cut_clean_stop (escaped : Bool) (tail : Bytes) {text : Bytes} {stop : UInt8}
    (clean : ∀ b ∈ text, stops b = false) (stopping : stops stop = true)
    (unescaped : escapes escaped text = false) :
    cut stops escaped (text ++ stop :: tail) = (text, stop :: tail) := by
  induction text generalizing escaped with
  | nil =>
    have plain : escaped = false := unescaped
    simp [cut, stopping, plain]
  | cons b rest ih =>
    rw [escapes_cons] at unescaped
    have free := clean b List.mem_cons_self
    have later := ih (b == backslash) (fun c member => clean c (List.mem_cons_of_mem _ member)) unescaped
    simp [cut, free, later]

theorem cut_rest_head {escaped : Bool} {text rest : Bytes} {stop : UInt8}
    (eq : (cut stops escaped text).2 = stop :: rest) : stops stop = true ∧ stop ∈ text := by
  induction text generalizing escaped with
  | nil => simp [cut] at eq
  | cons b tail ih =>
    by_cases here : (stops b && !escaped) = true
    · simp only [cut, here, ↓reduceIte, List.cons.injEq] at eq
      obtain ⟨rfl, -⟩ := eq
      simp only [Bool.and_eq_true] at here
      exact ⟨here.1, List.mem_cons_self⟩
    · simp only [cut, here, Bool.false_eq_true, ↓reduceIte] at eq
      obtain ⟨stopping, member⟩ := ih eq
      exact ⟨stopping, List.mem_cons_of_mem _ member⟩

theorem pieces_ne_nil (escaped : Bool) (text : Bytes) : pieces stops escaped text ≠ [] := by
  cases text with
  | nil => simp [pieces]
  | cons b rest =>
    simp only [pieces]
    split
    · simp
    · split <;> simp

theorem pieces_clean (escaped : Bool) {text : Bytes} (clean : ∀ b ∈ text, stops b = false) :
    pieces stops escaped text = [text] := by
  induction text generalizing escaped with
  | nil => rfl
  | cons b rest ih =>
    have free := clean b List.mem_cons_self
    have later := ih (b == backslash) fun c member => clean c (List.mem_cons_of_mem _ member)
    simp [pieces, free, later]

theorem pieces_clean_stop (escaped : Bool) {text tail : Bytes} {stop : UInt8}
    (clean : ∀ b ∈ text, stops b = false) (stopping : stops stop = true)
    (unescaped : escapes escaped text = false) :
    pieces stops escaped (text ++ stop :: tail) = text :: pieces stops false tail := by
  induction text generalizing escaped with
  | nil =>
    have plain : escaped = false := unescaped
    simp [pieces, stopping, plain]
  | cons b rest ih =>
    rw [escapes_cons] at unescaped
    have free := clean b List.mem_cons_self
    have later := ih (b == backslash) (fun c member => clean c (List.mem_cons_of_mem _ member)) unescaped
    simp [pieces, free, later]

/-- Joined pieces come apart again. -/
theorem pieces_intercalate {stop : UInt8} (stopping : stops stop = true) (texts : List Bytes)
    (nonempty : texts ≠ []) (clean : ∀ text ∈ texts, ∀ b ∈ text, stops b = false)
    (unescaped : ∀ text ∈ texts, escapes false text = false) :
    pieces stops false ([stop].intercalate texts) = texts := by
  induction texts with
  | nil => exact absurd rfl nonempty
  | cons text others ih =>
    have first := clean text List.mem_cons_self
    cases others with
    | nil =>
      rw [List.intercalate_singleton]
      exact pieces_clean false first
    | cons next others =>
      have later := ih (by simp) (fun t member => clean t (List.mem_cons_of_mem _ member))
        (fun t member => unescaped t (List.mem_cons_of_mem _ member))
      rw [List.intercalate_cons_cons, List.append_assoc, List.singleton_append,
        pieces_clean_stop false first stopping (unescaped text List.mem_cons_self), later]

theorem mem_intercalate {b separator : UInt8} {texts : List Bytes}
    (member : b ∈ [separator].intercalate texts) : b = separator ∨ ∃ text ∈ texts, b ∈ text := by
  induction texts with
  | nil => simp [List.intercalate_nil] at member
  | cons text others ih =>
    cases others with
    | nil =>
      rw [List.intercalate_singleton] at member
      exact .inr ⟨text, List.mem_cons_self, member⟩
    | cons next others =>
      rw [List.intercalate_cons_cons] at member
      rcases List.mem_append.mp member with front | later
      · rcases List.mem_append.mp front with inside | joint
        · exact .inr ⟨text, List.mem_cons_self, inside⟩
        · exact .inl (List.mem_singleton.mp joint)
      · rcases ih later with joint | ⟨t, known, inside⟩
        · exact .inl joint
        · exact .inr ⟨t, List.mem_cons_of_mem _ known, inside⟩

end Cutting

theorem unescape_length (special : UInt8 → Bool) (text : Bytes) :
    (unescape special text).length ≤ text.length := by
  induction text with
  | nil => exact Nat.le_refl _
  | cons b rest ih =>
    simp only [unescape]
    split
    · exact Nat.le_succ_of_le ih
    · exact Nat.succ_le_succ ih

theorem unescape_clean {special : UInt8 → Bool} {text : Bytes}
    (clean : ∀ b ∈ text, special b = false) : unescape special text = text := by
  induction text with
  | nil => rfl
  | cons b rest ih =>
    have later := ih fun c member => clean c (List.mem_cons_of_mem _ member)
    have kept : rest.head?.any special = false := by
      cases rest with
      | nil => rfl
      | cons c rest => exact clean c (by simp)
    simp [unescape, kept, later]

/-- A text that a cut passes whole and unescaping leaves alone has no special byte. -/
theorem clean_of_unescape_eq {special : UInt8 → Bool} {escaped : Bool} {text : Bytes}
    (whole : cut special escaped text = (text, []))
    (same : (unescape special text).length = text.length)
    (unescaped : escaped = true → text.head?.any special = false) :
    ∀ b ∈ text, special b = false := by
  induction text generalizing escaped with
  | nil => simp
  | cons b rest ih =>
    have free : special b = false := by
      cases escaped with
      | true => exact unescaped rfl
      | false =>
        cases stop : special b with
        | false => rfl
        | true => simp [cut, stop] at whole
    have later : cut special (b == backslash) rest = (rest, []) := by
      simp only [cut, free, Bool.false_and, Bool.false_eq_true, ↓reduceIte, Prod.mk.injEq,
        List.cons.injEq, true_and] at whole
      exact Prod.ext whole.1 whole.2
    have kept : (b == backslash && rest.head?.any special) = false := by
      cases dropped : (b == backslash && rest.head?.any special) with
      | false => rfl
      | true =>
        have shorter := unescape_length special rest
        rw [unescape, if_pos dropped, List.length_cons] at same
        omega
    simp only [unescape, kept, Bool.false_eq_true, ↓reduceIte, List.length_cons,
      Nat.add_right_cancel_iff] at same
    have others := ih later same fun slash => by simpa [slash] using kept
    intro c member
    rcases List.mem_cons.mp member with rfl | member
    · exact free
    · exact others c member

theorem escapes_false_iff {text : Bytes} :
    escapes false text = false ↔ text.getLast? ≠ some backslash := by
  unfold escapes
  cases text.getLast? with
  | none => simp
  | some b => simp

theorem length_of_mapM {α β : Type} {f : α → Option β} {inputs : List α} {outputs : List β}
    (all : inputs.mapM f = some outputs) : outputs.length = inputs.length := by
  induction inputs generalizing outputs with
  | nil =>
    rw [List.mapM_nil] at all
    cases all
    rfl
  | cons input inputs ih =>
    simp only [List.mapM_cons, Option.bind_eq_bind, Option.bind_eq_some_iff, Option.pure_def,
      Option.some.injEq] at all
    obtain ⟨output, -, outputs, rest, rfl⟩ := all
    simp [ih rest]

theorem mapM_congr {α β : Type} {f g : α → Option β} {inputs : List α}
    (same : ∀ input ∈ inputs, f input = g input) : inputs.mapM f = inputs.mapM g := by
  induction inputs with
  | nil => rfl
  | cons input inputs ih =>
    rw [List.mapM_cons, List.mapM_cons, same input List.mem_cons_self,
      ih fun later member => same later (List.mem_cons_of_mem _ member)]

theorem mapM_isSome {α β : Type} {f : α → Option β} {inputs : List α} :
    (inputs.mapM f).isSome = inputs.all fun input => (f input).isSome := by
  induction inputs with
  | nil => rfl
  | cons input inputs ih =>
    rw [List.mapM_cons, List.all_cons, ← ih]
    cases f input with
    | none => rfl
    | some output => cases inputs.mapM f <;> rfl

/-- A clean key reads back with whatever number its value is. -/
theorem parseField_pair {key : Bytes} (value : Bytes) (nonempty : key ≠ [])
    (clean : ∀ b ∈ key, endsKey b = false) (ending : key.getLast? ≠ some backslash) :
    parseField (key ++ equals :: value) = (parseNumber value).map (key, ·) := by
  have eq := cut_clean_stop false value clean (show endsKey equals = true by rfl)
    (escapes_false_iff.mpr ending)
  simp only [parseField, parsePair, eq, unescape_clean clean, ne_eq, nonempty, not_false_eq_true,
    true_and]
  by_cases empty : value = []
  · rw [empty]
    rfl
  · rw [if_pos empty]
    cases read : parseNumber value with
    | none => simp [read]
    | some number => simp [read]

theorem parseFields_intercalate (texts : List Bytes) (nonempty : texts ≠ [])
    (clean : ∀ text ∈ texts, comma ∉ text ∧ backslash ∉ text) :
    parseFields ([comma].intercalate texts) = texts.mapM parseField := by
  have stop : (fun b : UInt8 => b == comma) comma = true := beq_self_eq_true comma
  have apart : pieces (· == comma) false ([comma].intercalate texts) = texts := by
    apply @pieces_intercalate (· == comma) comma stop texts nonempty
    · intro text member b inside
      simp only [beq_eq_false_iff_ne]
      rintro rfl
      exact (clean text member).1 inside
    · intro text member
      apply escapes_false_iff.mpr
      intro last
      exact (clean text member).2 (List.mem_of_getLast? last)
  rw [parseFields, apart]

/-- A point without tags comes from a name ended by a space: a comma opens a tag
set, and a tag set holds at least one tag. -/
theorem parseLine_untagged {line name : Bytes} {fields : List (Bytes × ℚ)}
    (parsed : parseLine line = some ⟨name, [], fields⟩) :
    ∃ raw rest, cut endsName false line = (raw, space :: rest) ∧
      unescape endsName raw = name ∧ parseFields rest = some fields := by
  unfold parseLine at parsed
  split at parsed
  · contradiction
  · contradiction
  next b raw stop rest eq =>
    split at parsed
    next isSpace =>
      simp only [Option.bind_eq_bind, Option.bind_eq_some_iff, Option.pure_def, Option.some.injEq,
        Point.mk.injEq, true_and] at parsed
      obtain ⟨found, read, same, rfl⟩ := parsed
      exact ⟨b :: raw, rest, by rw [eq, isSpace], same, read⟩
    next =>
      exfalso
      split at parsed
      · contradiction
      next tagText _ fieldText _ =>
        simp only [Option.bind_eq_bind, Option.bind_eq_some_iff, Option.pure_def,
          Option.some.injEq, Point.mk.injEq] at parsed
        obtain ⟨tags, all, _, -, -, rfl, -⟩ := parsed
        have count := length_of_mapM all
        exact pieces_ne_nil _ _ (List.eq_nil_of_length_eq_zero count.symm)

/-- A name that stands for itself reads back with whatever the field set is. -/
theorem parseLine_plain {comments : Bool} {name : Bytes} (text : Bytes) (nonempty : name ≠ [])
    (plain : PlainName comments name) :
    parseLine (name ++ space :: text) = (parseFields text).map (⟨name, [], ·⟩) := by
  obtain ⟨b, others, rfl⟩ := List.exists_cons_of_ne_nil nonempty
  have stop : endsName space = true := rfl
  have eq := cut_clean_stop false text plain.separators stop (escapes_false_iff.mpr plain.ending)
  simp only [parseLine, eq, unescape_clean plain.separators, ↓reduceIte]
  cases parseFields text <;> rfl

/-- Only a name that stands for itself reads back without tags. -/
theorem plain_of_parseLine {name text : Bytes} {fields : List (Bytes × ℚ)} (spaceless : space ∉ text)
    (parsed : parseLine (name ++ space :: text) = some ⟨name, [], fields⟩) :
    PlainName false name := by
  obtain ⟨raw, rest, eq, same, -⟩ := parseLine_untagged parsed
  rcases @cut_append endsName false name (space :: text) with shorter | ⟨whole, through⟩
  · -- a separator inside the name cuts it short
    have length := unescape_length endsName raw
    rw [same] at length
    simp only [eq] at shorter
    omega
  · rw [through] at eq
    obtain ⟨front, tail⟩ := Prod.mk.inj eq
    cases ending : escapes false name with
    | true =>
      -- the space is escaped, and the next separator is a comma
      rw [ending] at tail
      simp only [cut, Bool.not_true, Bool.and_false, Bool.false_eq_true, ↓reduceIte] at tail
      exact absurd (cut_rest_head tail).2 spaceless
    | false =>
      rw [ending] at front
      have stop : endsName space = true := rfl
      simp only [cut, stop, Bool.not_false, Bool.and_true, ↓reduceIte, List.append_nil] at front
      obtain rfl := front
      exact ⟨clean_of_unescape_eq whole (by rw [same]) (by simp), escapes_false_iff.mp ending, by simp⟩

section Body

-- A body of one line: a configured name, a space and a field set.
variable {comments : Bool} {name text : Bytes}

theorem parseBody_line (nonempty : name ≠ []) (nameLine : newline ∉ name) (textLine : newline ∉ text) :
    parseBody comments (name ++ space :: text) =
      if comments = true ∧ name.head? = some hash then some []
      else (parseLine (name ++ space :: text)).map ([·]) := by
  have oneLine : (name ++ space :: text).splitOn newline = [name ++ space :: text] := by
    apply List.splitOn_eq_singleton
    simp only [List.mem_append, List.mem_cons, not_or]
    exact ⟨nameLine, by decide, textLine⟩
  have head : (name ++ space :: text).head? = name.head? := by
    obtain ⟨b, others, rfl⟩ := List.exists_cons_of_ne_nil nonempty
    rfl
  have kept : significant comments (name ++ space :: text) =
      !(comments && name.head? == some hash) := by
    simp [significant, head]
  rw [parseBody, oneLine]
  split
  next comment =>
    have skipped : significant comments (name ++ space :: text) = false := by
      rw [kept, comment.1, comment.2]
      rfl
    simp [skipped]
  next visible =>
    have counted : significant comments (name ++ space :: text) = true := by
      rw [kept]
      cases comments with
      | false => rfl
      | true => simpa using visible
    cases parsed : parseLine (name ++ space :: text) with
    | none => simp [counted, parsed]
    | some point => simp [counted, parsed]

theorem parseBody_plain (nonempty : name ≠ []) (nameLine : newline ∉ name)
    (textLine : newline ∉ text) (plain : PlainName comments name) :
    parseBody comments (name ++ space :: text) =
      (parseFields text).map fun fields => [⟨name, [], fields⟩] := by
  rw [parseBody_line nonempty nameLine textLine, if_neg fun comment => plain.start comment.1 comment.2,
    parseLine_plain text nonempty plain, Option.map_map]
  rfl

theorem plain_of_parseBody {fields : List (Bytes × ℚ)} (nonempty : name ≠ [])
    (nameLine : newline ∉ name) (textLine : newline ∉ text) (spaceless : space ∉ text)
    (parsed : parseBody comments (name ++ space :: text) = some [⟨name, [], fields⟩]) :
    PlainName comments name := by
  rw [parseBody_line nonempty nameLine textLine] at parsed
  split at parsed
  · simp at parsed
  next visible =>
    obtain ⟨point, line, same⟩ := Option.map_eq_some_iff.mp parsed
    obtain rfl := List.singleton_inj.mp same
    have plain := plain_of_parseLine spaceless line
    exact ⟨plain.separators, plain.ending, fun on hashed => visible ⟨on, hashed⟩⟩

end Body

end XMeterLogger.LineProtocol
