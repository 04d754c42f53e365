import Mathlib.Data.List.Basic

set_option autoImplicit false

/- Reading line-based text: what stands before and after a separator, decimal numbers,
   ASCII text as bytes, HTTP messages with their Content-Length, and lines of a name and a
   number. What a cut has found it finds again when more text follows. -/
namespace TextReader

def cutAt (separator : List Char) : List Char → Option (List Char × List Char)
  | [] => none
  | char :: rest =>
      if separator.isPrefixOf (char :: rest) then some ([], (char :: rest).drop separator.length)
      else (cutAt separator rest).map fun (before, after) => (char :: before, after)

theorem cut_at_here (separator after : List Char) (nonempty : separator ≠ []) :
    cutAt separator (separator ++ after) = some ([], after) := by
  obtain ⟨first, others, rfl⟩ := List.exists_cons_of_ne_nil nonempty
  have begins : (first :: others).isPrefixOf (first :: (others ++ after)) = true :=
    List.isPrefixOf_iff_prefix.mpr (List.prefix_append (first :: others) after)
  rw [List.cons_append, cutAt, if_pos begins]
  simp

theorem cut_at_skip (first : Char) (others chars rest : List Char) (absent : first ∉ chars) :
    cutAt (first :: others) (chars ++ rest) =
      (cutAt (first :: others) rest).map fun (before, after) => (chars ++ before, after) := by
  induction chars with
  | nil => simp
  | cons char chars ih =>
      obtain ⟨different, later⟩ := not_or.mp (mt List.mem_cons.mpr absent)
      have elsewhere : ¬(first :: others).isPrefixOf (char :: (chars ++ rest)) = true := by
        rw [List.isPrefixOf_iff_prefix, List.cons_prefix_cons]
        exact fun begins => different begins.1
      rw [List.cons_append, cutAt, if_neg elsewhere, ih later, Option.map_map]
      rfl

theorem cut_at_first (first : Char) (others before after : List Char) (absent : first ∉ before) :
    cutAt (first :: others) (before ++ (first :: others ++ after)) = some (before, after) := by
  rw [cut_at_skip first others before _ absent, cut_at_here _ _ (List.cons_ne_nil _ _)]
  simp

theorem cut_at_parts (separator text before after : List Char) (cut : cutAt separator text = some (before, after)) :
    text = before ++ (separator ++ after) := by
  induction text generalizing before with
  | nil => cases cut
  | cons char rest ih =>
      rw [cutAt] at cut
      by_cases here : separator.isPrefixOf (char :: rest) = true
      · rw [if_pos here] at cut
        cases cut
        exact (List.prefix_iff_eq_append.mp (List.isPrefixOf_iff_prefix.mp here)).symm
      · rw [if_neg here] at cut
        obtain ⟨⟨prior, tail⟩, found, same⟩ := Option.map_eq_some_iff.mp cut
        cases same
        rw [ih prior found]
        rfl

theorem cut_at_append (separator text more before after : List Char)
    (cut : cutAt separator text = some (before, after)) :
    cutAt separator (text ++ more) = some (before, after ++ more) := by
  induction text generalizing before with
  | nil => cases cut
  | cons char rest ih =>
      rw [cutAt] at cut
      by_cases here : separator.isPrefixOf (char :: rest) = true
      · rw [if_pos here] at cut
        cases cut
        have begins := List.isPrefixOf_iff_prefix.mp here
        have still : separator.isPrefixOf (char :: (rest ++ more)) = true :=
          List.isPrefixOf_iff_prefix.mpr (begins.trans (List.prefix_append (char :: rest) more))
        rw [List.cons_append, cutAt, if_pos still, ← List.cons_append, List.drop_append_of_le_length begins.length_le]
      · rw [if_neg here] at cut
        obtain ⟨⟨prior, tail⟩, found, same⟩ := Option.map_eq_some_iff.mp cut
        cases same
        have still : ¬separator.isPrefixOf (char :: (rest ++ more)) = true := by
          intro begins
          have room : separator.length ≤ (char :: rest).length := by
            rw [cut_at_parts separator rest prior after found]
            simp only [List.length_cons, List.length_append]
            omega
          refine here (List.isPrefixOf_iff_prefix.mpr ?_)
          exact List.prefix_of_prefix_length_le (List.isPrefixOf_iff_prefix.mp begins)
            (List.prefix_append (char :: rest) more) room
        rw [List.cons_append, cutAt, if_neg still, ih prior found]
        rfl

def decimal (digits : List Char) : Option Nat :=
  if digits ≠ [] ∧ digits.all Char.isDigit then some (Nat.ofDigitChars 10 digits 0) else none

theorem decimal_repr (n : Nat) : decimal n.repr.toList = some n := by
  have digits : (Nat.toDigits 10 n).all Char.isDigit = true :=
    List.all_eq_true.mpr fun _ member => Nat.isDigit_of_mem_toDigits (by decide) (by decide) member
  rw [decimal, Nat.toList_repr, if_pos ⟨Nat.toDigits_ne_nil, digits⟩, Nat.ofDigitChars_ten_toDigits]

theorem repr_absent (n : Nat) (char : Char) (noDigit : char.isDigit = false) : char ∉ n.repr.toList := by
  intro member
  rw [Nat.toList_repr] at member
  rw [Nat.isDigit_of_mem_toDigits (by decide) (by decide) member] at noDigit
  cases noDigit

def Ascii (text : List Char) : Prop := ∀ char ∈ text, char.toNat < 128

instance (text : List Char) : Decidable (Ascii text) := List.decidableBAll _ text

theorem ascii_append (text more : List Char) : Ascii (text ++ more) ↔ Ascii text ∧ Ascii more := by
  simp only [Ascii, List.mem_append, or_imp, forall_and]

theorem ascii_repr (n : Nat) : Ascii n.repr.toList := by
  intro char member
  rw [Nat.toList_repr] at member
  have digit := Nat.isDigit_of_mem_toDigits (by decide) (by decide) member
  simp only [Char.isDigit, Bool.and_eq_true, decide_eq_true_eq, UInt32.le_iff_toNat_le] at digit
  exact Nat.lt_of_le_of_lt digit.2 (by decide)

def asciiText (bytes : List UInt8) : List Char := bytes.map fun byte => Char.ofNat byte.toNat

theorem ascii_text_utf8 (text : List Char) (ascii : Ascii text) :
    asciiText (text.flatMap String.utf8EncodeChar) = text := by
  induction text with
  | nil => rfl
  | cons char rest ih =>
      obtain ⟨here, later⟩ := List.forall_mem_cons.mp ascii
      have one : char.utf8Size = 1 := Char.utf8Size_eq_one_iff.mpr (by
        rw [UInt32.le_iff_toNat_le]
        exact Nat.le_of_lt_succ here)
      rw [List.flatMap_cons, String.utf8EncodeChar_eq_singleton one, asciiText, List.map_append]
      have others : (rest.flatMap String.utf8EncodeChar).map (fun byte => Char.ofNat byte.toNat) = rest := ih later
      rw [others]
      have back : char.val.toUInt8.toNat = char.toNat := Nat.mod_eq_of_lt (Nat.lt_trans here (by decide))
      rw [List.map_singleton, List.singleton_append, back, Char.ofNat_toNat]

def blankLine : List Char := ['\r', '\n', '\r', '\n']

def contentLength (line : List Char) : Option Nat :=
  (cutAt [':', ' '] line).bind fun (name, value) =>
    if String.ofList name = "Content-Length" then decimal (value.takeWhile (· ≠ '\r')) else none

def httpBody (response : List Char) : Option (List Char) :=
  (cutAt blankLine response).bind fun (head, rest) =>
    ((head.splitOn '\n').findSome? contentLength).bind fun length =>
      if rest.length < length then none else some (rest.take length)

def crlf : List Char := ['\r', '\n']

theorem blank_line_later (line more : List Char) (oneLine : '\r' ∉ line) (next : more.head? ≠ some '\r') :
    cutAt blankLine (line ++ (crlf ++ more)) =
      (cutAt blankLine more).map fun (before, after) => (line ++ (crlf ++ before), after) := by
  have skipped : cutAt blankLine (crlf ++ more) =
      (cutAt blankLine more).map fun (before, after) => (crlf ++ before, after) := by
    have here : ¬blankLine.isPrefixOf ('\r' :: '\n' :: more) = true := by
      cases more with
      | nil => decide
      | cons char rest =>
          intro begins
          simp only [blankLine, List.isPrefixOf, Bool.and_eq_true, beq_iff_eq] at begins
          exact next (congrArg some begins.2.2.1.symm)
    have newline : ¬blankLine.isPrefixOf ('\n' :: more) = true := by
      intro begins
      simp [blankLine, List.isPrefixOf] at begins
    rw [crlf, List.cons_append, List.cons_append, List.nil_append, cutAt, if_neg here, cutAt, if_neg newline,
      Option.map_map]
    rfl
  rw [blankLine, cut_at_skip _ _ line _ oneLine, ← blankLine, skipped, Option.map_map]
  rfl

theorem head_cut (first : List Char) (lines : List (List Char)) (rest : List Char)
    (single : ∀ line ∈ first :: lines, '\r' ∉ line ∧ line ≠ []) :
    cutAt blankLine (crlf.intercalate (first :: lines) ++ (blankLine ++ rest)) =
      some (crlf.intercalate (first :: lines), rest) := by
  induction lines generalizing first with
  | nil =>
      rw [List.intercalate_singleton]
      exact cut_at_first '\r' ['\n', '\r', '\n'] first rest (single first List.mem_cons_self).1
  | cons second lines ih =>
      obtain ⟨here, later⟩ := List.forall_mem_cons.mp single
      obtain ⟨char, others, shape⟩ := List.exists_cons_of_ne_nil (later second List.mem_cons_self).2
      have next : (crlf.intercalate (second :: lines) ++ (blankLine ++ rest)).head? ≠ some '\r' := by
        rw [shape, List.intercalate_cons_cons_left, List.cons_append, List.head?_cons]
        intro same
        refine (later second List.mem_cons_self).1 ?_
        rw [shape, Option.some.inj same]
        exact List.mem_cons_self
      rw [List.intercalate_cons_cons, List.append_assoc, List.append_assoc, blank_line_later _ _ here.1 next,
        ih second later, Option.map_some, List.append_assoc]

theorem head_field (before : List (List Char)) (line next : List Char) (after : List (List Char)) (length : Nat)
    (others : ∀ other ∈ before, '\n' ∉ other ∧ contentLength (other ++ ['\r']) = none) (oneLine : '\n' ∉ line)
    (field : contentLength (line ++ ['\r']) = some length) :
    ((crlf.intercalate (before ++ line :: next :: after)).splitOn '\n').findSome? contentLength = some length := by
  induction before with
  | nil =>
      have shape : crlf.intercalate (line :: next :: after) =
          (line ++ ['\r']) ++ '\n' :: crlf.intercalate (next :: after) := by
        rw [List.intercalate_cons_cons, crlf]
        simp
      rw [List.nil_append, shape, List.splitOn_append_cons_self_of_not_mem (by simp [oneLine]), List.findSome?_cons,
        field]
  | cons other before ih =>
      obtain ⟨⟨single, nothing⟩, later⟩ := List.forall_mem_cons.mp others
      obtain ⟨second, lines, shape⟩ : ∃ second lines, before ++ line :: next :: after = second :: lines :=
        List.exists_cons_of_ne_nil (by simp)
      have split : crlf.intercalate (other :: second :: lines) =
          (other ++ ['\r']) ++ '\n' :: crlf.intercalate (second :: lines) := by
        rw [List.intercalate_cons_cons, crlf]
        simp
      rw [List.cons_append, shape, split, List.splitOn_append_cons_self_of_not_mem (by simp [single]),
        List.findSome?_cons, nothing, ← shape]
      exact ih later

-- Of a line that is no comment, the name before the first space and the number behind it.
def sample (line : List Char) : Option (String × Nat) :=
  if line.head? = some '#' then none
  else (cutAt [' '] line).bind fun (name, value) => (decimal value).map fun number => (String.ofList name, number)

def samples (body : List Char) : List (String × Nat) := (body.splitOn '\n').filterMap sample

theorem sample_comment (line : List Char) : sample ('#' :: line) = none := rfl

theorem samples_line (line rest : List Char) (oneLine : '\n' ∉ line) :
    samples (line ++ '\n' :: rest) = (sample line).toList ++ samples rest := by
  rw [samples, List.splitOn_append_cons_self_of_not_mem oneLine, List.filterMap_cons]
  cases sample line <;> rfl

theorem sample_value (name : String) (value : Nat) (noSpace : ' ' ∉ name.toList)
    (noComment : name.toList.head? ≠ some '#') (named : name.toList ≠ []) : sample (name.toList ++ ' ' :: value.repr.toList) = some (name, value) := by
  have first : (name.toList ++ ' ' :: value.repr.toList).head? = name.toList.head? := by
    rw [List.head?_append, List.head?_eq_some_head named]
    rfl
  have cut : cutAt [' '] (name.toList ++ ' ' :: value.repr.toList) = some (name.toList, value.repr.toList) :=
    cut_at_first ' ' [] _ _ noSpace
  rw [sample, first, if_neg noComment, cut, Option.bind_some]
  dsimp only
  rw [decimal_repr, Option.map_some, String.ofList_toList]

end TextReader
