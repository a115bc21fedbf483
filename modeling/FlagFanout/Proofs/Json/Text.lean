import FlagFanout.Json.Printer
import FlagFanout.Json.Reader
import FlagFanout.Proofs.Number.Layout

/-!
# The text of a value reads back

`Json.compact` writes a value and `Json.ofText` reads it. Each part is read up to what follows it:
a string up to its quote, a number up to the comma or the bracket behind it, a series of items up to
the closing bracket. A value is read back as long as its numbers are in range and its containers do
not nest too deep (`Json.Fits`).
-/

namespace FlagFanout.Json

/-! ## What follows a value -/

/-- What may follow a value: nothing, a comma or the end of a container. -/
def Ends (rest : List Char) : Prop := ∀ c ∈ rest.head?, c = ',' ∨ c = ']' ∨ c = '\x7d'

theorem ends_nil : Ends [] := fun _ h => absurd h (by simp)

theorem ends_comma (rest : List Char) : Ends (',' :: rest) := fun _ h =>
  .inl (Option.mem_some.1 h).symm

variable {rest : List Char}

namespace Ends

theorem skipBlanks_eq (h : Ends rest) : skipBlanks rest = rest := by
  cases rest with
  | nil => rfl
  | cons c cs =>
    rcases h c rfl with rfl | rfl | rfl <;> rfl

theorem isDigit_eq_false (h : Ends rest) : ∀ c ∈ rest.head?, c.isDigit = false := fun c hc => by
  rcases h c hc with rfl | rfl | rfl <;> rfl

theorem readFraction_eq (h : Ends rest) : readFraction rest = .ok (none, rest) := by
  cases rest with
  | nil => rfl
  | cons c cs =>
    rcases h c rfl with rfl | rfl | rfl <;> rfl

theorem readExponent_eq (h : Ends rest) : readExponent rest = .ok (none, rest) := by
  cases rest with
  | nil => rfl
  | cons c cs =>
    rcases h c rfl with rfl | rfl | rfl <;> rfl

end Ends

/-! ## Strings -/

theorem hexValue?_digitChar : ∀ n < 32,
    hexValue? (Nat.digitChar (n / 16)) = some (n / 16) ∧
      hexValue? (Nat.digitChar (n % 16)) = some (n % 16) ∧
      4 ≤ (String.ofList
        ['0', '0', Nat.digitChar (n / 16), Nat.digitChar (n % 16)]).utf8ByteSize := by
  decide

/-- The code unit of a control character is read as the character. -/
theorem readString_unit {c : Char} (hc : c.toNat < 32) (read rest : List Char) :
    readString .escape read ('u' :: '0' :: '0' :: Nat.digitChar (c.toNat / 16) ::
      Nat.digitChar (c.toNat % 16) :: rest) = readString .plain (c :: read) rest := by
  obtain ⟨hhigh, hlow, hsize⟩ := hexValue?_digitChar _ hc
  have hstate : unitState none ('0' :: '0' :: Nat.digitChar (c.toNat / 16) ::
      Nat.digitChar (c.toNat % 16) :: rest) = .ok (.unit 4 0 none) := if_neg hsize.not_gt
  have hclose : closeUnit (16 * (c.toNat / 16) + c.toNat % 16) none = .ok (some c, .plain) := by
    rw [Nat.div_add_mod, closeUnit, if_neg, if_neg, Char.ofNat_toNat]
    all_goals
      simp only [Bool.and_eq_true, decide_eq_true_eq]
      omega
  rw [readString, if_pos rfl, hstate]
  change readString (.unit 2 0 none) read (_ :: _ :: rest) = _
  rw [readString, hhigh]
  change readString (.unit 1 (16 * 0 + c.toNat / 16) none) read (_ :: rest) = _
  rw [readString, hlow, Nat.mul_zero, Nat.zero_add]
  simp only [Nat.lt_irrefl, if_false, hclose]
  rfl

/-- However a character is escaped, it is read back. -/
theorem readString_escapedChar (c : Char) (read rest : List Char) :
    readString .plain read (escapedChar c ++ rest) = readString .plain (c :: read) rest := by
  unfold escapedChar
  split
  iterate 7 rfl
  split
  · next hc => exact readString_unit hc read rest
  · next hquote hbackslash _ _ _ _ _ hc =>
    rw [List.singleton_append, readString, if_neg hquote, if_neg hbackslash, if_neg hc]

theorem readString_flatMap (cs read rest : List Char) :
    readString .plain read (cs.flatMap escapedChar ++ '"' :: rest) =
      .ok (String.ofList (read.reverse ++ cs), rest) := by
  induction cs generalizing read with
  | nil =>
    rw [List.flatMap_nil, List.nil_append, readString, if_pos rfl, List.append_nil]
  | cons c cs ih =>
    rw [List.flatMap_cons, List.append_assoc, readString_escapedChar, ih, List.reverse_cons,
      List.append_assoc, List.singleton_append]

theorem toList_escaped (s : String) :
    (escaped s).toList = '"' :: (s.toList.flatMap escapedChar ++ ['"']) :=
  String.toList_ofList

theorem readString_escaped (s : String) (rest : List Char) :
    readString .plain [] (s.toList.flatMap escapedChar ++ ['"'] ++ rest) = .ok (s, rest) := by
  rw [List.append_assoc, List.singleton_append, readString_flatMap, List.reverse_nil,
    List.nil_append, String.ofList_toList]

/-! ## Numbers -/

theorem spanDigits_append {ds rest : List Char} (hds : ∀ c ∈ ds, c.isDigit = true)
    (hrest : ∀ c ∈ rest.head?, c.isDigit = false) : spanDigits (ds ++ rest) = (ds, rest) := by
  have hstop : rest.takeWhile Char.isDigit = [] ∧ rest.dropWhile Char.isDigit = rest := by
    cases rest with
    | nil => exact ⟨rfl, rfl⟩
    | cons c cs =>
      have hc : ¬ c.isDigit = true := by rw [hrest c rfl]; exact Bool.false_ne_true
      exact ⟨List.takeWhile_cons_of_neg hc, List.dropWhile_cons_of_neg hc⟩
  rw [spanDigits, List.takeWhile_append_of_pos hds, List.dropWhile_append_of_pos hds, hstop.1,
    hstop.2, List.append_nil]

/-- A number is read in three parts. -/
theorem readUnsigned_append (negative : Bool) {whole tail tail' rest : List Char}
    {fraction : Option (List Char)} {exponent : Option Int}
    (hwhole : ∀ c ∈ whole, c.isDigit = true) (hne : whole ≠ [])
    (hzero : whole.head? = some '0' → whole.length = 1)
    (htail : ∀ c ∈ tail.head?, c.isDigit = false)
    (hfraction : readFraction tail = .ok (fraction, tail'))
    (hexponent : readExponent tail' = .ok (exponent, rest)) :
    readUnsigned negative (whole ++ tail) =
      (if fraction.isNone && exponent.isNone then ofIntegerToken negative whole
        else ofDouble (.ofDigits negative whole (fraction.getD []) (exponent.getD 0))).map
          (·, rest) := by
  have hempty : ¬ whole.isEmpty = true := by rwa [List.isEmpty_iff]
  have hlead : ¬ (decide (whole.head? = some '0') && decide (1 < whole.length)) = true := by
    rw [Bool.and_eq_true, decide_eq_true_eq, decide_eq_true_eq]
    rintro ⟨hhead, hlength⟩
    exact hlength.ne' (hzero hhead)
  unfold readUnsigned
  rw [spanDigits_append hwhole htail]
  dsimp only
  rw [if_neg hempty, if_neg hlead, hfraction]
  change (readExponent tail' >>= _) = _
  rw [hexponent]
  change (if (fraction.isNone && exponent.isNone) = true
    then ofIntegerToken negative whole >>= fun value => pure (value, rest)
    else ofDouble _ >>= fun value => pure (value, rest)) = _
  split
  · cases ofIntegerToken negative whole <;> rfl
  · cases ofDouble (.ofDigits negative whole (fraction.getD []) (exponent.getD 0)) <;> rfl

/-- An integer without its sign is read up to its end. -/
theorem readUnsigned_digitsOf (negative : Bool) (n : Nat) (h : Ends rest) :
    readUnsigned negative (Layout.digitsOf n ++ rest) =
      (ofIntegerToken negative (Layout.digitsOf n)).map (·, rest) := by
  refine readUnsigned_append negative (fun c hc => Layout.isDigit_of_mem_digitsOf hc)
    (Layout.digitsOf_ne_nil n) (fun hhead => ?_) h.isDigit_eq_false h.readFraction_eq
    h.readExponent_eq
  rcases Nat.eq_zero_or_pos n with rfl | hn
  · rfl
  · exact absurd hhead (Layout.head?_digitsOf hn)

theorem readExponent_exponentText (t : Token) (h : Ends rest) :
    readExponent (t.exponentText ++ rest) = .ok (t.exponent, rest) := by
  unfold Token.exponentText
  cases t.exponent with
  | none => exact h.readExponent_eq
  | some e =>
    have hspan : spanDigits (Layout.digitsOf e.natAbs ++ rest) = (Layout.digitsOf e.natAbs, rest) :=
      spanDigits_append (fun c hc => Layout.isDigit_of_mem_digitsOf hc) h.isDigit_eq_false
    have hnonempty : (Layout.digitsOf e.natAbs).isEmpty = false :=
      List.isEmpty_eq_false_iff.2 (Layout.digitsOf_ne_nil _)
    rcases lt_or_ge e 0 with hneg | hpos
    · simp [readExponent, spanSign, hneg, hspan, hnonempty, Layout.naturalOf_digitsOf,
        abs_of_neg hneg]
    · simp [readExponent, spanSign, hpos.not_gt, hspan, hnonempty, Layout.naturalOf_digitsOf,
        abs_of_nonneg hpos]

theorem head?_exponentText (t : Token) (h : Ends rest) :
    ∀ c ∈ (t.exponentText ++ rest).head?, c.isDigit = false ∧ c ≠ '.' := by
  unfold Token.exponentText
  cases t.exponent with
  | none =>
    intro c hc
    rcases h c hc with rfl | rfl | rfl <;> exact ⟨rfl, by decide⟩
  | some e =>
    rintro c ⟨⟩
    exact ⟨rfl, by decide⟩

theorem readFraction_fractionText (t : Token) (h : Ends rest) :
    readFraction (t.fractionText ++ (t.exponentText ++ rest)) =
      .ok (if t.fraction = [] then none else some t.fraction, t.exponentText ++ rest) := by
  have htail := head?_exponentText t h
  unfold Token.fractionText
  split
  · rw [List.nil_append]
    unfold readFraction
    split
    · next heq =>
      rw [heq] at htail
      exact absurd rfl (htail '.' rfl).2
    · rfl
  · next hne =>
    have hspan := spanDigits_append t.fraction_isDigit fun c hc => (htail c hc).1
    rw [List.cons_append, readFraction, hspan]
    exact if_neg (by rwa [List.isEmpty_iff])

/-- A token is read as its number. -/
theorem readUnsigned_text (negative : Bool) (t : Token) (h : Ends rest) :
    readUnsigned negative (t.text ++ rest) = (ofDouble (t.number negative)).map (·, rest) := by
  have htail : ∀ c ∈ (t.fractionText ++ (t.exponentText ++ rest)).head?, c.isDigit = false := by
    unfold Token.fractionText
    split
    · exact fun c hc => (head?_exponentText t h c hc).1
    · rintro c ⟨⟩
      rfl
  rw [Token.text, List.append_assoc, List.append_assoc,
    readUnsigned_append negative t.whole_isDigit t.whole_ne_nil t.length_of_zero htail
      (readFraction_fractionText t h) (readExponent_exponentText t h)]
  by_cases hfraction : t.fraction = []
  · have hexponent := Option.isSome_iff_ne_none.1 (t.not_integer hfraction)
    simp [hfraction, Token.number, hexponent]
  · simp [hfraction, Token.number]

/-- The text starts with a digit. -/
def OpensUnsigned (cs : List Char) : Prop := ∃ d ds, Char.isDigit d = true ∧ cs = d :: ds

theorem opensUnsigned_append {whole : List Char} (hdigits : ∀ c ∈ whole, c.isDigit = true)
    (hne : whole ≠ []) (tail : List Char) : OpensUnsigned (whole ++ tail) := by
  obtain ⟨d, ds, rfl⟩ := List.exists_cons_of_ne_nil hne
  exact ⟨d, ds ++ tail, hdigits d List.mem_cons_self, rfl⟩

theorem opensUnsigned_digitsOf (n : Nat) : OpensUnsigned (Layout.digitsOf n) := by
  simpa using opensUnsigned_append (fun c hc => Layout.isDigit_of_mem_digitsOf hc)
    (Layout.digitsOf_ne_nil n) []

theorem opensUnsigned_text (t : Token) : OpensUnsigned t.text :=
  opensUnsigned_append t.whole_isDigit t.whole_ne_nil _

/-- The first character of a number. -/
def OpensNumber (c : Char) : Prop := c = '-' ∨ c.isDigit = true

theorem OpensNumber.ne {c : Char} (hc : OpensNumber c) {d : Char} (hminus : d ≠ '-')
    (hdigit : d.isDigit = false) : ¬ c = d := by
  rintro rfl
  exact hc.elim hminus fun hc => by simp [hdigit] at hc

theorem OpensNumber.skipBlanks_cons {c : Char} (hc : OpensNumber c) (cs : List Char) :
    skipBlanks (c :: cs) = c :: cs := by
  refine List.dropWhile_cons_of_neg ?_
  simp [hc.ne (d := ' ') (by decide) rfl, hc.ne (d := '\n') (by decide) rfl,
    hc.ne (d := '\t') (by decide) rfl, hc.ne (d := '\r') (by decide) rfl]

/-- A value that starts as numbers do is a number. -/
theorem readValue_of_opensNumber {c : Char} (hc : OpensNumber c) (depth : Nat) (cs : List Char) :
    readValue (depth + 1) (c :: cs) = readNumber (c :: cs) := by
  rw [readValue, hc.skipBlanks_cons]
  dsimp only
  -- neither a word nor a string nor a container starts with this character
  rw [if_neg (hc.ne (by decide) rfl), if_neg (hc.ne (by decide) rfl),
    if_neg (hc.ne (by decide) rfl), if_neg (hc.ne (by decide) rfl),
    if_neg (hc.ne (by decide) rfl), if_neg (hc.ne (by decide) rfl),
    if_pos (by simpa [OpensNumber] using hc)]

/-- A number after a minus or after nothing. -/
def signed (negative : Bool) (cs : List Char) : List Char := if negative then '-' :: cs else cs

/-- A minus stands before a negative number and nothing before any other. -/
theorem readValue_signed (depth : Nat) (negative : Bool) {cs : List Char} (hcs : OpensUnsigned cs)
    (rest : List Char) :
    readValue (depth + 1) (signed negative cs ++ rest) = readUnsigned negative (cs ++ rest) := by
  obtain ⟨d, ds, hd, rfl⟩ := hcs
  cases negative with
  | true => exact readValue_of_opensNumber (.inl rfl) depth _
  | false =>
    refine (readValue_of_opensNumber (.inr hd) depth _).trans ?_
    unfold readNumber
    split
    · next heq =>
      cases heq
      cases hd
    · rfl

theorem ofIntegerToken_digitsOf {i : Int} (hlow : -2 ^ 63 ≤ i) (hhigh : i < 2 ^ 64) :
    ofIntegerToken (i < 0) (Layout.digitsOf i.natAbs) = .ok (int i) := by
  unfold ofIntegerToken
  rw [Layout.naturalOf_digitsOf]
  rcases lt_or_ge i 0 with hneg | hpos
  · have hback : -(i.natAbs : Int) = i := by omega
    have hfits : (Int64.ofInt i).toInt = i := Int64.toInt_ofInt_of_le hlow (by omega)
    have hzero : i.natAbs ≠ 0 := by omega
    simp only [decide_eq_true hneg, if_true, hback, hfits]
    rw [if_pos (by simpa using hzero)]
  · have hback : (i.natAbs : Int) = i := by omega
    have hfits : i.natAbs < UInt64.size := by
      simp only [UInt64.size]
      omega
    simp only [decide_eq_false hpos.not_gt, Bool.false_eq_true, if_false, if_pos hfits, hback]

theorem toList_ofInt (i : Int) :
    (Layout.ofInt i).toList = signed (i < 0) (Layout.digitsOf i.natAbs) := by
  rw [Layout.ofInt, String.toList_ofList, signed]
  simp only [decide_eq_true_eq]

theorem readValue_ofInt (depth : Nat) {i : Int} (hlow : -2 ^ 63 ≤ i) (hhigh : i < 2 ^ 64)
    (h : Ends rest) :
    readValue (depth + 1) ((Layout.ofInt i).toList ++ rest) = .ok (int i, rest) := by
  rw [toList_ofInt, readValue_signed depth _ (opensUnsigned_digitsOf _),
    readUnsigned_digitsOf _ _ h, ofIntegerToken_digitsOf hlow hhigh]
  rfl

/-- A finite number is written as its sign and a token that is read as the number. -/
theorem exists_token_wire {x : Binary64} (hfinite : x.isFinite = true) :
    ∃ t : Token, (Layout.wire.write x).toList = signed x.isNegative t.text ∧
      t.number x.isNegative = x := by
  obtain ⟨t, htext, hnumber⟩ := Layout.exists_token_write (l := .wire) rfl hfinite
  exact ⟨t, by rw [htext, String.toList_ofList, signed], hnumber⟩

theorem readValue_write (depth : Nat) {x : Binary64} (hfinite : x.isFinite = true)
    (h : Ends rest) :
    readValue (depth + 1) ((Layout.wire.write x).toList ++ rest) = .ok (float x, rest) := by
  obtain ⟨t, htext, hnumber⟩ := exists_token_wire hfinite
  rw [htext, readValue_signed depth _ (opensUnsigned_text t), readUnsigned_text _ t h, hnumber,
    ofDouble, if_pos hfinite]
  rfl

/-! ## Containers -/

/-- The text starts with a character that neither is blank nor ends a container. -/
def Opens (cs : List Char) : Prop :=
  ∃ c r, cs = c :: r ∧ ¬ (c = ']' ∨ c = '\x7d') ∧ ∀ r', skipBlanks (c :: r') = c :: r'

theorem opens_signed (negative : Bool) {cs : List Char} (hcs : OpensUnsigned cs) :
    Opens (signed negative cs) := by
  obtain ⟨d, ds, hd, rfl⟩ := hcs
  have hopens {c : Char} (hc : OpensNumber c) (r : List Char) : Opens (c :: r) :=
    ⟨c, r, rfl, not_or.2 ⟨hc.ne (by decide) rfl, hc.ne (by decide) rfl⟩, hc.skipBlanks_cons⟩
  cases negative with
  | true => exact hopens (.inl rfl) _
  | false => exact hopens (.inr hd) _

section Series

variable {α : Type} {close : Char} {item : List Char → Except Fault (α × List Char)}
  {write : α → List Char}

/-- Items that are read one by one are read as a series. -/
theorem readSeries_write (hclose : close = ']' ∨ close = '\x7d') {a : α} {l : List α}
    (hitem : ∀ b ∈ a :: l, ∀ rest, Ends rest → item (write b ++ rest) = .ok (b, rest))
    {bound : Nat} (hbound : l.length < bound) (rest : List Char) :
    readSeries close item bound
        (write a ++ (l.flatMap (fun b => ',' :: write b) ++ close :: rest)) =
      .ok (a :: l, rest) := by
  induction l generalizing a bound with
  | nil =>
    obtain ⟨k, rfl⟩ := Nat.exists_eq_add_of_lt hbound
    have hends : Ends (close :: rest) := fun c hc => .inr ((Option.mem_some.1 hc) ▸ hclose)
    rw [List.flatMap_nil, List.nil_append, readSeries, hitem a List.mem_cons_self _ hends]
    dsimp only [Bind.bind, Except.bind]
    rw [hends.skipBlanks_eq]
    exact if_pos rfl
  | cons b l ih =>
    obtain ⟨k, rfl⟩ := Nat.exists_eq_add_of_lt hbound
    have hcomma : ¬ ',' = close := by rcases hclose with rfl | rfl <;> decide
    have hless : l.length < (b :: l).length + k := by
      rw [List.length_cons]
      omega
    have hrest := ih (fun d hd => hitem d (List.mem_cons_of_mem _ hd)) hless
    rw [List.flatMap_cons, List.cons_append, List.cons_append, List.append_assoc, readSeries,
      hitem a List.mem_cons_self _ (ends_comma _)]
    change (if ',' = close then _ else if ',' = ',' then _ else _) = _
    rw [if_neg hcomma, if_pos rfl, hrest]
    rfl

/-- A container is empty or holds a series, whose first item does not start with its end. -/
theorem readEnclosed_write (hclose : close = ']' ∨ close = '\x7d') {a : α} {l : List α}
    (hitem : ∀ b ∈ a :: l, ∀ rest, Ends rest → item (write b ++ rest) = .ok (b, rest))
    (hfirst : Opens (write a)) (rest : List Char) :
    readEnclosed close item (write a ++ (l.flatMap (fun b => ',' :: write b) ++ close :: rest)) =
      .ok (a :: l, rest) := by
  obtain ⟨c, cs, hwrite, hc, hskip⟩ := hfirst
  -- every item after the first has a comma, so the text is long enough for the bound
  have hlength : l.length ≤ (l.flatMap fun b => ',' :: write b).length := by
    rw [List.length_flatMap, ← List.length_map]
    exact List.length_le_sum_of_one_le _ (by simp)
  have hbound : l.length <
      (write a ++ (l.flatMap (fun b => ',' :: write b) ++ close :: rest)).length := by
    simp only [List.length_append, List.length_cons]
    omega
  have hseries := readSeries_write hclose hitem hbound rest
  rw [hwrite, List.cons_append] at hseries ⊢
  rw [readEnclosed, hskip]
  have hopen : ¬ c = close := by
    rintro rfl
    exact hc hclose
  exact (if_neg hopen).trans hseries

end Series

/-- A member as it is written. -/
def memberText (m : String × Json) : List Char :=
  (escaped m.1).toList ++ ':' :: (compact m.2).toList

theorem toList_compactItems (items : List Json) :
    (compactItems items).toList = items.flatMap fun j => ',' :: (compact j).toList := by
  induction items with
  | nil => rfl
  | cons j items ih => simp [compactItems, String.toList_append, ih]

theorem toList_compactMembers (members : List (String × Json)) :
    (compactMembers members).toList = members.flatMap fun m => ',' :: memberText m := by
  induction members with
  | nil => rfl
  | cons m members ih => simp [compactMembers, memberText, String.toList_append, ih]

theorem toList_compact_arr (j : Json) (items : List Json) :
    (compact (arr (j :: items))).toList =
      '[' :: ((compact j).toList ++
        (items.flatMap (fun j => ',' :: (compact j).toList) ++ [']'])) := by
  simp [compact, String.toList_append, toList_compactItems]

theorem toList_compact_obj (m : String × Json) (members : List (String × Json)) :
    (compact (obj (m :: members))).toList =
      '\x7b' :: (memberText m ++ (members.flatMap (fun m => ',' :: memberText m) ++ ['\x7d'])) := by
  simp [compact, memberText, String.toList_append, toList_compactMembers]

theorem memberText_eq (m : String × Json) :
    memberText m =
      '"' :: (m.1.toList.flatMap escapedChar ++ ['"'] ++ ':' :: (compact m.2).toList) := by
  rw [memberText, toList_escaped, List.cons_append]

theorem opens_memberText (m : String × Json) : Opens (memberText m) :=
  ⟨'"', _, memberText_eq m, by decide, fun _ => rfl⟩

theorem readMember_memberText {value : List Char → Except Fault (Json × List Char)}
    {m : String × Json} (h : value ((compact m.2).toList ++ rest) = .ok (m.2, rest)) :
    readMember value (memberText m ++ rest) = .ok (m, rest) := by
  have hkey := readString_escaped m.1 (':' :: (compact m.2).toList ++ rest)
  rw [memberText_eq, List.cons_append, List.append_assoc]
  change (readString .plain [] _ >>= _) = _
  rw [hkey]
  change (value ((compact m.2).toList ++ rest) >>= _) = _
  rw [h]
  rfl

/-! ## Values -/

/-- A value that can be written: its numbers are in range, and containers nest less than the given
number deep. -/
def Fits : Nat → Json → Prop
  | 0, _ => False
  | _ + 1, int i => -2 ^ 63 ≤ i ∧ i < 2 ^ 64
  | _ + 1, float x => x.isFinite = true
  | depth + 1, arr items => 0 < depth ∧ ∀ j ∈ items, Fits depth j
  | depth + 1, obj members => 0 < depth ∧ ∀ m ∈ members, Fits depth m.2
  | _ + 1, _ => True

section Kinds

variable (depth : Nat) (cs : List Char)

theorem readValue_quote :
    readValue (depth + 1) ('"' :: cs) =
      (readString .plain [] cs).map fun (s, rest) => (str s, rest) := rfl

theorem readValue_bracket :
    readValue (depth + 2) ('[' :: cs) =
      (readEnclosed ']' (readValue (depth + 1)) cs).map
        fun (items, rest) => (arr items, rest) := rfl

theorem readValue_brace :
    readValue (depth + 2) ('\x7b' :: cs) =
      (readEnclosed '\x7d' (readMember (readValue (depth + 1))) cs).map
        fun (members, rest) => (obj members, rest) := rfl

end Kinds

theorem opens_compact {depth : Nat} {j : Json} (h : Fits (depth + 1) j) :
    Opens (compact j).toList := by
  cases j with
  | null => exact ⟨'n', _, rfl, by decide, fun _ => rfl⟩
  | bool b =>
    cases b with
    | true => exact ⟨'t', _, rfl, by decide, fun _ => rfl⟩
    | false => exact ⟨'f', _, rfl, by decide, fun _ => rfl⟩
  | int i =>
    rw [compact, toList_ofInt]
    exact opens_signed _ (opensUnsigned_digitsOf _)
  | float x =>
    obtain ⟨t, htext, -⟩ := exists_token_wire h
    rw [compact, htext]
    exact opens_signed _ (opensUnsigned_text t)
  | str s => exact ⟨'"', _, toList_escaped s, by decide, fun _ => rfl⟩
  | arr items =>
    cases items with
    | nil => exact ⟨'[', _, rfl, by decide, fun _ => rfl⟩
    | cons j items => exact ⟨'[', _, toList_compact_arr j items, by decide, fun _ => rfl⟩
  | obj members =>
    cases members with
    | nil => exact ⟨'\x7b', _, rfl, by decide, fun _ => rfl⟩
    | cons m members => exact ⟨'\x7b', _, toList_compact_obj m members, by decide, fun _ => rfl⟩

/-- A value is read up to its end. -/
theorem readValue_compact {depth : Nat} {j : Json} (h : Fits depth j) (hrest : Ends rest) :
    readValue depth ((compact j).toList ++ rest) = .ok (j, rest) := by
  induction depth generalizing j rest with
  | zero => exact h.elim
  | succ depth ih =>
    cases j with
    | null => rfl
    | bool b => cases b <;> rfl
    | int i => exact readValue_ofInt depth h.1 h.2 hrest
    | float x => exact readValue_write depth h hrest
    | str s =>
      rw [compact, toList_escaped, List.cons_append, readValue_quote, readString_escaped]
      rfl
    | arr items =>
      -- the reader refuses a container for which no depth is left, even an empty one
      obtain ⟨d, rfl⟩ := Nat.exists_eq_add_of_lt h.1
      cases items with
      | nil => rfl
      | cons j items =>
        have hseries := readEnclosed_write (.inl rfl) (fun j hj _ => ih (h.2 j hj))
          (opens_compact (h.2 j List.mem_cons_self)) rest
        rw [toList_compact_arr, List.cons_append, List.append_assoc, List.append_assoc,
          List.singleton_append, readValue_bracket, hseries]
        rfl
    | obj members =>
      obtain ⟨d, rfl⟩ := Nat.exists_eq_add_of_lt h.1
      cases members with
      | nil => rfl
      | cons m members =>
        have hseries := readEnclosed_write (.inr rfl)
          (fun m hm _ hrest => readMember_memberText (ih (h.2 m hm) hrest))
          (opens_memberText m) rest
        rw [toList_compact_obj, List.cons_append, List.append_assoc, List.append_assoc,
          List.singleton_append, readValue_brace, hseries]
        rfl

/-- **The text of a value reads back.** -/
theorem ofText_compact {j : Json} (h : Fits depthLimit j) : ofText j.compact = .ok j := by
  have hread := readValue_compact h ends_nil
  rw [List.append_nil] at hread
  rw [ofText, hread]
  rfl

end FlagFanout.Json
