import EzRouter.Config.CJsonAccepts
import EzRouter.Config.CJsonText
import Mathlib.Data.Nat.Digits.Lemmas

/-!
# What is printed is parsed back

Each scanner of the parser reads what the printer writes for its part of the
tree, up to the byte that comes next.  The induction is on the levels of arrays
and objects.
-/

namespace EzRouter

open EzRouter.Foundation Ascii

/-! ## Strings are read back -/

theorem parseHex4_escape (b : UInt8) :
    parseHex4 [48, 48, hexDigit (b.toNat / 16), hexDigit (b.toNat % 16)] =
      b.toNat := by
  revert b
  apply forall_byte
  decide +kernel

theorem hexDigit_plain (b : UInt8) :
    hexDigit (b.toNat / 16) ≠ quote ∧ hexDigit (b.toNat / 16) ≠ backslash ∧
      hexDigit (b.toNat % 16) ≠ quote ∧
      hexDigit (b.toNat % 16) ≠ backslash := by
  revert b
  apply forall_byte
  decide +kernel

theorem utf8Bytes_ascii (b : UInt8) :
    b ≤ 31 → b.toNat < 0x80 ∧ utf8Bytes b.toNat = [b] := by
  revert b
  apply forall_byte
  decide +kernel

theorem escapeByte_cases (b : UInt8) :
    (escapeByte b = [b] ∧ b ≠ quote ∧ b ≠ backslash) ∨
    (∃ c, escapeByte b = [backslash, c] ∧ c ≠ 117 ∧ escapedByte c = some b) ∨
    escapeByte b = [backslash, 117, 48, 48, hexDigit (b.toNat / 16),
      hexDigit (b.toNat % 16)] ∧ b ≤ 31 := by
  unfold escapeByte
  split_ifs with hplain hb hb hb hb hb hb hb
  · exact .inl ⟨rfl, hplain.2⟩
  · subst hb
    exact .inr (.inl ⟨_, rfl, by decide, by decide⟩)
  · subst hb
    exact .inr (.inl ⟨_, rfl, by decide, by decide⟩)
  · subst hb
    exact .inr (.inl ⟨_, rfl, by decide, by decide⟩)
  · subst hb
    exact .inr (.inl ⟨_, rfl, by decide, by decide⟩)
  · subst hb
    exact .inr (.inl ⟨_, rfl, by decide, by decide⟩)
  · subst hb
    exact .inr (.inl ⟨_, rfl, by decide, by decide⟩)
  · subst hb
    exact .inr (.inl ⟨_, rfl, by decide, by decide⟩)
  · refine .inr (.inr ⟨rfl, ?_⟩)
    by_contra hgt
    apply hplain
    refine ⟨?_, by assumption, by assumption⟩
    exact UInt8.not_le.1 hgt

theorem scanString_plain {b : UInt8} (hquote : b ≠ quote)
    (hbackslash : b ≠ backslash) (rest : List UInt8) :
    scanString (b :: rest) =
      (scanString rest).map fun out => (b :: out.1, out.2) := by
  rw [scanString.eq_def]
  simp only [if_neg hquote, if_neg hbackslash]

theorem scanString_pair (c : UInt8) (rest : List UInt8) :
    scanString (backslash :: c :: rest) =
      (scanString rest).map fun out => (backslash :: c :: out.1, out.2) := by
  rw [scanString.eq_def]
  rfl

theorem scanString_escapeByte (b : UInt8) (rest : List UInt8) :
    scanString (escapeByte b ++ rest) =
      (scanString rest).map fun out => (escapeByte b ++ out.1, out.2) := by
  rcases escapeByte_cases b with ⟨heq, hquote, hbackslash⟩ | ⟨c, heq, -⟩ |
    ⟨heq, -⟩
  · rw [heq]
    exact scanString_plain hquote hbackslash rest
  · rw [heq]
    exact scanString_pair c rest
  · rcases hexDigit_plain b with ⟨hquote, hbackslash, hquote', hbackslash'⟩
    have hzero : (48 : UInt8) ≠ quote ∧ (48 : UInt8) ≠ backslash := by decide
    rw [heq]
    simp only [List.cons_append, List.nil_append]
    rw [scanString_pair, scanString_plain hzero.1 hzero.2,
      scanString_plain hzero.1 hzero.2, scanString_plain hquote hbackslash,
      scanString_plain hquote' hbackslash']
    cases scanString rest <;> rfl

theorem scanString_escaped (bytes rest : List UInt8) :
    scanString (bytes.flatMap escapeByte ++ quote :: rest) =
      some (bytes.flatMap escapeByte, rest) := by
  induction bytes with
  | nil =>
      rw [List.flatMap_nil, List.nil_append, scanString.eq_def]
      rfl
  | cons b bytes ih =>
      rw [List.flatMap_cons, List.append_assoc, scanString_escapeByte, ih]
      rfl

theorem readEscape_codeUnit {b : UInt8} (hb : b ≤ 31) (rest : List UInt8) :
    readEscape (backslash :: 117 :: 48 :: 48 :: hexDigit (b.toNat / 16) ::
      hexDigit (b.toNat % 16) :: rest) = some ([b], 6) := by
  rcases utf8Bytes_ascii b hb with ⟨hlt, hbytes⟩
  have hcode : parseHex4 (48 :: 48 :: hexDigit (b.toNat / 16) ::
      hexDigit (b.toNat % 16) :: rest) = b.toNat := parseHex4_escape b
  unfold readEscape
  simp only [List.tail_cons, List.headD_cons, if_true, utf16LiteralToUtf8,
    List.drop_succ_cons, List.drop_zero, hcode]
  rw [if_neg (by simp), if_neg (by omega), if_neg (by omega), hbytes]

theorem unescape_escapeByte (b : UInt8) (rest : List UInt8) :
    unescape 0 (escapeByte b ++ rest) = (unescape 0 rest).map (b :: ·) := by
  rcases escapeByte_cases b with ⟨heq, -, hbackslash⟩ | ⟨c, heq, hc, hbyte⟩ |
    ⟨heq, hb⟩
  · rw [heq, List.singleton_append, unescape, if_pos hbackslash]
  · have hescape : readEscape (backslash :: c :: rest) = some ([b], 2) := by
      simp [readEscape, hc, hbyte]
    rw [heq]
    simp only [List.cons_append, List.nil_append]
    rw [unescape, if_neg (by decide), hescape]
    rfl
  · rw [heq]
    simp only [List.cons_append, List.nil_append]
    rw [unescape, if_neg (by decide), readEscape_codeUnit hb]
    rfl

theorem unescape_escaped (bytes : List UInt8) :
    unescape 0 (bytes.flatMap escapeByte) = some bytes := by
  induction bytes with
  | nil => rfl
  | cons b bytes ih =>
      rw [List.flatMap_cons, unescape_escapeByte, ih]
      rfl

theorem parseString_stringText (s : CStr) (rest : List UInt8) :
    parseString (stringText s ++ rest) = some (s, rest) := by
  have hscan := scanString_escaped s.bytes rest
  simp only [stringText, List.append_assoc, List.cons_append, List.nil_append]
  rw [parseString, if_neg (by simp), hscan]
  simp only [unescape_escaped, Option.map_some, CStr.ofBytes_bytes]

/-- `strtod` reads an `int` as it is printed. -/
def ReadsInts (strtod : Strtod) : Prop :=
  ∀ n, IsInt n → strtod (intText n) = (.finite n, (intText n).length)

theorem isNumberByte_digit : ∀ d < 10,
    isNumberByte (UInt8.ofNat (48 + d)) = true ∧
      48 ≤ UInt8.ofNat (48 + d) ∧ UInt8.ofNat (48 + d) ≤ 57 := by
  decide

theorem decimal_digits (n : Nat) :
    ∀ b ∈ decimal n, isNumberByte b = true ∧ 48 ≤ b ∧ b ≤ 57 := by
  unfold decimal
  split_ifs
  · intro b hb
    rw [List.mem_singleton.1 hb]
    exact isNumberByte_digit 0 (by omega)
  · intro b hb
    rcases List.mem_map.1 hb with ⟨d, hd, rfl⟩
    exact isNumberByte_digit d
      (Nat.digits_lt_base (by omega) (List.mem_reverse.1 hd))

theorem decimal_ne_nil (n : Nat) : decimal n ≠ [] := by
  unfold decimal
  split_ifs with hzero
  · simp
  · simpa using Nat.digits_ne_nil_iff_ne_zero.2 hzero

theorem intText_numberBytes (n : Int) :
    ∀ b ∈ intText n, isNumberByte b = true := by
  cases n with
  | ofNat n => exact fun b hb => (decimal_digits n b hb).1
  | negSucc n =>
      simp only [intText, List.forall_mem_cons]
      exact ⟨by decide, fun b hb => (decimal_digits _ b hb).1⟩

theorem intText_cons (n : Int) :
    ∃ b text, intText n = b :: text ∧ (b = minus ∨ 48 ≤ b ∧ b ≤ 57) := by
  cases n with
  | ofNat n =>
      rcases List.exists_cons_of_ne_nil (decimal_ne_nil n) with
        ⟨b, text, htext⟩
      refine ⟨b, text, htext, .inr (decimal_digits n b ?_).2⟩
      rw [htext]
      exact List.mem_cons_self
  | negSucc n => exact ⟨_, _, rfl, .inl rfl⟩

theorem toInt_of_isInt {n : Int} (h : IsInt n) : (Double.finite n).toInt = n := by
  unfold IsInt at h
  simp only [Double.toInt]
  split_ifs with hmax hmin
  · have := Rat.intCast_le_intCast.1 hmax
    omega
  · have := Rat.intCast_le_intCast.1 hmin
    omega
  · simp

theorem parseNumber_intText {strtod : Strtod} (hstrtod : ReadsInts strtod)
    {n : Int} (hn : IsInt n) :
    (parseNumber strtod).Reads (fun b => isNumberByte b = false) (intText n)
      (.number n) := by
  intro a rest ha
  have htake : (intText n ++ a :: rest).takeWhile isNumberByte = intText n := by
    rw [List.takeWhile_append_of_pos (intText_numberBytes n),
      List.takeWhile_cons_of_neg (by simp [ha]), List.append_nil]
  have hpos : (intText n).length ≠ 0 := by
    rcases intText_cons n with ⟨b, text, htext, -⟩
    simp [htext]
  simp only [parseNumber, htake, hstrtod n hn]
  rw [if_neg hpos, toInt_of_isInt hn, List.drop_left]

def Blank (text : List UInt8) : Prop := ∀ b ∈ text, b ≤ 32

theorem blank_nil : Blank [] := by simp [Blank]

theorem blank_singleton {b : UInt8} (h : b ≤ 32) : Blank [b] := by
  simpa [Blank] using h

theorem bufferSkipWhitespace_blank {blank : List UInt8} (hblank : Blank blank)
    {b : UInt8} (hb : 32 < b) (rest : List UInt8) :
    bufferSkipWhitespace (blank ++ b :: rest) = b :: rest := by
  have hdrop : (blank ++ b :: rest).dropWhile (· ≤ 32) = b :: rest := by
    rw [List.dropWhile_append_of_pos fun c hc => by simpa using hblank c hc,
      List.dropWhile_cons_of_neg (by simpa using hb)]
  unfold bufferSkipWhitespace
  rw [hdrop]

theorem bufferSkipWhitespace_gt {b : UInt8} (hb : 32 < b)
    (rest : List UInt8) : bufferSkipWhitespace (b :: rest) = b :: rest := by
  have hskip := bufferSkipWhitespace_blank blank_nil hb rest
  rwa [List.nil_append] at hskip

theorem blank_formatted (format : Bool) {text : List UInt8}
    (h : Blank text) : Blank (formatted format text) := by
  cases format with
  | true => exact h
  | false => simp [formatted, Blank]

theorem blank_tabs (depth : Nat) : Blank (tabs depth) := by
  intro b hb
  rw [List.eq_of_mem_replicate hb]
  decide

theorem Blank.append {text text' : List UInt8} (h : Blank text)
    (h' : Blank text') : Blank (text ++ text') := by
  intro b hb
  rcases List.mem_append.1 hb with hb | hb
  · exact h b hb
  · exact h' b hb

theorem bufferSkipWhitespace_idem (input : List UInt8) :
    bufferSkipWhitespace (bufferSkipWhitespace input) =
      bufferSkipWhitespace input := by
  cases hdrop : input.dropWhile (· ≤ 32) with
  | nil =>
      have hblank : Blank input := by simpa [Blank] using hdrop
      have hlast : bufferSkipWhitespace input =
          input.drop (input.length - 1) := by
        rw [bufferSkipWhitespace, hdrop]
      have hskip : ((input.drop (input.length - 1)).dropWhile (· ≤ 32)) =
          [] := by
        rw [List.dropWhile_eq_nil_iff]
        exact fun b hb => by simpa using hblank b (List.mem_of_mem_drop hb)
      rw [hlast, bufferSkipWhitespace, hskip, List.length_drop]
      cases input with
      | nil => rfl
      | cons b rest => simp
  | cons b rest =>
      have hb : 32 < b := by
        have hnot := List.head_dropWhile_not (· ≤ (32 : UInt8)) (l := input)
          (by simp [hdrop])
        simpa [hdrop] using hnot
      have hrest : bufferSkipWhitespace input = b :: rest := by
        rw [bufferSkipWhitespace, hdrop]
      rw [hrest]
      exact bufferSkipWhitespace_gt hb rest

/-! ## Items and members -/

def notNumber (b : UInt8) : Prop := isNumberByte b = false

def endsItem (b : UInt8) : Prop := notNumber b ∧ 32 < b

theorem notNumber_of_blank : ∀ b : UInt8, b ≤ 32 → notNumber b := by
  apply forall_byte
  unfold notNumber
  decide +kernel

section

variable {value : Reader UInt8 CJson} {text : List UInt8} {v : CJson}

theorem parseElement_reads (hvalue : value.Reads notNumber text v)
    (hhead : ∃ b text', text = b :: text' ∧ 32 < b) {before after : List UInt8}
    (hbefore : Blank before) (hafter : Blank after) :
    (parseElement value).Reads endsItem (before ++ text ++ after) v := by
  rintro a rest ⟨ha, hgt⟩
  rcases hhead with ⟨b, text', rfl, hb⟩
  have hskip : bufferSkipWhitespace (after ++ a :: rest) = a :: rest :=
    bufferSkipWhitespace_blank hafter hgt rest
  have hread : value (b :: text' ++ (after ++ a :: rest)) =
      some (v, after ++ a :: rest) := by
    cases after with
    | nil => exact hvalue a rest ha
    | cons c after =>
        exact hvalue c _ (notNumber_of_blank c (hafter c List.mem_cons_self))
  simp only [parseElement, List.append_assoc, List.cons_append]
  rw [bufferSkipWhitespace_blank hbefore hb, ← List.cons_append, hread]
  simp only [Option.map_some, hskip]

theorem parseMember_reads (hvalue : value.Reads notNumber text v)
    (hhead : ∃ b text', text = b :: text' ∧ 32 < b)
    {before between after : List UInt8} (hbefore : Blank before)
    (hbetween : Blank between) (hafter : Blank after) (key : CStr) :
    (parseMember value).Reads endsItem
      (before ++ stringText key ++ colon :: between ++ text ++ after)
      (key, v) := by
  intro a rest ha
  have helement := parseElement_reads hvalue hhead hbetween hafter a rest ha
  have hskip : bufferSkipWhitespace (before ++ (stringText key ++
      colon :: (between ++ text ++ after ++ a :: rest))) =
      stringText key ++ colon :: (between ++ text ++ after ++ a :: rest) :=
    bufferSkipWhitespace_blank hbefore (b := quote) (by decide) _
  have hcolon := bufferSkipWhitespace_gt (b := colon) (by decide)
    (between ++ text ++ after ++ a :: rest)
  have hinput : before ++ stringText key ++ colon :: between ++ text ++ after ++
      a :: rest = before ++ (stringText key ++
        colon :: (between ++ text ++ after ++ a :: rest)) := by
    simp only [List.append_assoc, List.cons_append]
  rw [hinput, parseMember, hskip, parseString_stringText]
  simp only [hcolon]
  rw [if_neg (by simp), helement]
  rfl

end

/-- Both kinds of items skip the whitespace in front of them, so the list is
read as if the loop had started at its opening bracket. -/
theorem parseList_of_listText {β : Type} {item : Reader UInt8 β}
    {close : UInt8} {stops : UInt8 → Prop} (hcomma : stops comma)
    (hclose : stops close) (hne : close ≠ comma)
    (hskip : ∀ input, item (bufferSkipWhitespace input) = item input)
    (hshrinks : item.Shrinks) {blank text : List UInt8} (hblank : Blank blank)
    {b : UInt8} (hb : 32 < b) (hopen : b ≠ close) {values : List β}
    (htext : item.ListText stops comma close (blank ++ b :: text) values)
    (tail : List UInt8) :
    parseList item close (blank ++ b :: text ++ tail) =
      some (values, tail) := by
  have hstart : bufferSkipWhitespace (blank ++ b :: text ++ tail) =
      b :: (text ++ tail) := by
    rw [List.append_assoc, List.cons_append]
    exact bufferSkipWhitespace_blank hblank hb _
  let turns := (blank ++ b :: text ++ tail).length
  have hread : item.sepBy comma close (turns + 1)
      (blank ++ b :: text ++ tail) = some (values, tail) := by
    apply Reader.sepBy_of_listText hcomma hclose hne htext
    have hle := htext.length_le
    simp only [turns, List.length_append] at hle ⊢
    omega
  have hfrom : item.sepBy comma close (turns + 1)
      (bufferSkipWhitespace (blank ++ b :: text ++ tail)) =
      item.sepBy comma close (turns + 1) (blank ++ b :: text ++ tail) :=
    Reader.sepBy_congr (turns + 1) (hskip (blank ++ b :: text ++ tail))
  rw [hread, hstart] at hfrom
  simp only [parseList, hstart]
  rw [if_neg hopen, ← hfrom]
  apply Reader.sepBy_turns hshrinks
  · simp
  · simp only [turns, List.length_append, List.length_cons]
    omega

theorem startsWith_cons_ne {text : String} {c : UInt8} {tail : List UInt8}
    (htext : (CStr.lit text).bytes = c :: tail) {b : UInt8} (hne : c ≠ b)
    (rest : List UInt8) : startsWith text (b :: rest) = false := by
  rw [startsWith, htext, List.isPrefixOf_cons_cons, beq_false_of_ne hne,
    Bool.false_and]

theorem startsWith_head {b : UInt8} (hb : b ≠ 110 ∧ b ≠ 102 ∧ b ≠ 116)
    (rest : List UInt8) :
    startsWith "null" (b :: rest) = false ∧
      startsWith "false" (b :: rest) = false ∧
      startsWith "true" (b :: rest) = false :=
  ⟨startsWith_cons_ne rfl (Ne.symm hb.1) rest,
    startsWith_cons_ne rfl (Ne.symm hb.2.1) rest,
    startsWith_cons_ne rfl (Ne.symm hb.2.2) rest⟩

theorem parseValue_quote (strtod : Strtod) (levels : Nat) (rest : List UInt8) :
    parseValue strtod levels (quote :: rest) =
      (parseString (quote :: rest)).map fun out => (.string out.1, out.2) := by
  rw [parseValue.eq_def]
  simp [startsWith_head (b := quote) (by decide) rest]

theorem parseValue_number (strtod : Strtod) (levels : Nat) {b : UInt8}
    (hb : b = minus ∨ 48 ≤ b ∧ b ≤ 57) (rest : List UInt8) :
    parseValue strtod levels (b :: rest) = parseNumber strtod (b :: rest) := by
  have hword : b ≠ 110 ∧ b ≠ 102 ∧ b ≠ 116 ∧ b ≠ quote := by
    revert b
    apply forall_byte
    decide +kernel
  have hwords := startsWith_head ⟨hword.1, hword.2.1, hword.2.2.1⟩ rest
  rw [parseValue.eq_def]
  simp only [hwords, Bool.false_eq_true, if_false, if_neg hword.2.2.2, if_pos hb]

theorem parseValue_bracket (strtod : Strtod) (levels : Nat)
    (rest : List UInt8) :
    parseValue strtod (levels + 1) (openBracket :: rest) =
      (parseList (parseElement (parseValue strtod levels)) closeBracket
        rest).map fun out => (.array out.1, out.2) := by
  have hwords := startsWith_head (b := openBracket) (by decide) rest
  rw [parseValue.eq_def]
  simp only [hwords, Bool.false_eq_true, if_false]
  rw [if_neg (by decide), if_neg (by decide), if_pos trivial]

theorem parseValue_brace (strtod : Strtod) (levels : Nat)
    (rest : List UInt8) :
    parseValue strtod (levels + 1) (openBrace :: rest) =
      (parseList (parseMember (parseValue strtod levels)) closeBrace
        rest).map fun out => (.object out.1, out.2) := by
  have hwords := startsWith_head (b := openBrace) (by decide) rest
  rw [parseValue.eq_def]
  simp only [hwords, Bool.false_eq_true, if_false]
  rw [if_neg (by decide), if_neg (by decide), if_neg (by decide),
    if_pos trivial]

theorem valueText_head (format : Bool) (depth : Nat) (v : CJson) :
    ∃ b text, valueText format depth v = b :: text ∧
      32 < b ∧ b < 128 ∧ b ≠ closeBracket := by
  cases v with
  | null => exact ⟨_, _, rfl, by decide⟩
  | bool value => cases value <;> exact ⟨_, _, rfl, by decide⟩
  | number n =>
      rcases intText_cons n with ⟨b, text, htext, hb⟩
      refine ⟨b, text, by rw [valueText, htext], ?_⟩
      clear htext
      revert b
      apply forall_byte
      decide +kernel
  | string s => exact ⟨quote, _, rfl, by decide⟩
  | array items => exact ⟨openBracket, _, by rw [valueText, List.cons_append],
      by decide⟩
  | object members =>
      exact ⟨openBrace, formatted format [newline] ++
        membersText format (depth + 1) members ++
        formatted format (tabs depth) ++ [closeBrace],
        by simp only [valueText, List.cons_append], by decide⟩

theorem listText_items {value : Reader UInt8 CJson} (format : Bool)
    (depth : Nat) {items : List CJson} (hne : items ≠ [])
    (hitems : ∀ item ∈ items,
      value.Reads notNumber (valueText format depth item) item)
    {blank : List UInt8} (hblank : Blank blank) :
    (parseElement value).ListText endsItem comma closeBracket
      (blank ++ itemsText format depth items ++ [closeBracket]) items := by
  induction items generalizing blank with
  | nil => contradiction
  | cons item items ih =>
      rcases valueText_head format depth item with ⟨b, text, htext, hb, -⟩
      have hread := parseElement_reads (hitems item List.mem_cons_self)
        ⟨b, text, htext, hb⟩ hblank blank_nil
      cases items with
      | nil =>
          have hlast : (parseElement value).ListText endsItem comma
              closeBracket _ [item] := .last hread
          simpa [itemsText] using hlast
      | cons item' items =>
          have hspace : Blank (formatted format [space]) :=
            blank_formatted format (blank_singleton (by decide))
          have hrest := ih (by simp)
            (fun i hi => hitems i (List.mem_cons_of_mem _ hi)) hspace
          have hmore := Reader.ListText.more hread hrest
          simpa [itemsText] using hmore

theorem listText_members {value : Reader UInt8 CJson} (format : Bool)
    (depth : Nat) {members : List (CStr × CJson)} (hne : members ≠ [])
    (hmembers : ∀ member ∈ members,
      value.Reads notNumber (valueText format depth member.2) member.2)
    {blank after : List UInt8} (hblank : Blank blank) (hafter : Blank after) :
    (parseMember value).ListText endsItem comma closeBrace
      (blank ++ membersText format depth members ++ after ++ [closeBrace])
      members := by
  have htabs := blank_formatted format (blank_tabs depth)
  have htab : Blank (formatted format [tab]) :=
    blank_formatted format (blank_singleton (by decide))
  have hnewline : Blank (formatted format [newline]) :=
    blank_formatted format (blank_singleton (by decide))
  induction members generalizing blank with
  | nil => contradiction
  | cons member members ih =>
      rcases valueText_head format depth member.2 with ⟨b, text, htext, hb, -⟩
      have hread := fun {after : List UInt8} (hafter : Blank after) =>
        parseMember_reads (hmembers member List.mem_cons_self)
          ⟨b, text, htext, hb⟩ (hblank.append htabs) htab hafter member.1
      cases members with
      | nil =>
          have hlast : (parseMember value).ListText endsItem comma
              closeBrace _ [member] := .last (hread (hnewline.append hafter))
          simpa [membersText] using hlast
      | cons member' members =>
          have hrest := ih (by simp)
            (fun m hm => hmembers m (List.mem_cons_of_mem _ hm)) hnewline
          have hmore := Reader.ListText.more (hread blank_nil) hrest
          simpa [membersText] using hmore

theorem parseElement_skip (value : Reader UInt8 CJson) (input : List UInt8) :
    parseElement value (bufferSkipWhitespace input) =
      parseElement value input := by
  simp only [parseElement, bufferSkipWhitespace_idem]

theorem parseMember_skip (value : Reader UInt8 CJson) (input : List UInt8) :
    parseMember value (bufferSkipWhitespace input) =
      parseMember value input := by
  simp only [parseMember, bufferSkipWhitespace_idem]

theorem parseList_empty {β : Type} (item : Reader UInt8 β) {close : UInt8}
    (hclose : 32 < close) {blank : List UInt8} (hblank : Blank blank)
    (tail : List UInt8) :
    parseList item close (blank ++ close :: tail) = some ([], tail) := by
  simp only [parseList, bufferSkipWhitespace_blank hblank hclose, if_true]

section

variable {value : Reader UInt8 CJson} (hshrinks : value.Shrinks)
include hshrinks

theorem parseList_items (format : Bool) (depth : Nat) {items : List CJson}
    (hitems : ∀ item ∈ items,
      value.Reads notNumber (valueText format depth item) item)
    (tail : List UInt8) :
    parseList (parseElement value) closeBracket
      (itemsText format depth items ++ closeBracket :: tail) =
        some (items, tail) := by
  cases items with
  | nil => exact parseList_empty _ (by decide) blank_nil tail
  | cons item items =>
      have htext := listText_items format depth (by simp) hitems blank_nil
      rcases valueText_head format depth item with
        ⟨b, text, hhead, hb, -, hopen⟩
      rw [List.nil_append, itemsText, hhead] at htext
      have hread := parseList_of_listText ⟨rfl, by decide⟩ ⟨rfl, by decide⟩
        (by decide) (parseElement_skip value) (parseElement_shrinks hshrinks)
        blank_nil hb hopen htext tail
      simpa [itemsText, hhead] using hread

theorem parseList_members (format : Bool) (depth : Nat)
    {members : List (CStr × CJson)}
    (hmembers : ∀ member ∈ members,
      value.Reads notNumber (valueText format depth member.2) member.2)
    {blank after : List UInt8} (hblank : Blank blank) (hafter : Blank after)
    (tail : List UInt8) :
    parseList (parseMember value) closeBrace
      (blank ++ membersText format depth members ++ after ++
        closeBrace :: tail) = some (members, tail) := by
  cases members with
  | nil =>
      have hclose : 32 < closeBrace := by decide
      have hempty := parseList_empty (parseMember value) hclose
        (hblank.append hafter) tail
      simpa [membersText] using hempty
  | cons member members =>
      have htabs := blank_formatted format (blank_tabs depth)
      have htext := listText_members format depth (by simp) hmembers hblank
        hafter
      have hinput : blank ++ membersText format depth (member :: members) ++
          after ++ [closeBrace] =
          blank ++ formatted format (tabs depth) ++ quote ::
            ((stringText member.1).tail ++ colon :: formatted format [tab] ++
              valueText format depth member.2 ++
              (if members.isEmpty then [] else [comma]) ++
              formatted format [newline] ++ membersText format depth members ++
              after ++ [closeBrace]) := by
        simp [membersText, stringText]
      rw [hinput] at htext
      have hread := parseList_of_listText ⟨rfl, by decide⟩ ⟨rfl, by decide⟩
        (by decide) (parseMember_skip value) (parseMember_shrinks hshrinks)
        (hblank.append htabs) (by decide) (by decide) htext tail
      rw [← hinput] at hread
      simpa using hread

end

/-- Induction on the nesting: an array or an object is read once its items
are, with one level less. -/
theorem parseValue_reads {strtod : Strtod} (hstrtod : ReadsInts strtod)
    (format : Bool) {levels : Nat} {v : CJson} (hnests : v.NestsWithin levels)
    (hsized : v.IntSized) (depth : Nat) :
    (parseValue strtod levels).Reads notNumber (valueText format depth v)
      v := by
  induction hnests generalizing depth with
  | null levels =>
      intro a rest _
      rw [parseValue.eq_def]
      rfl
  | bool levels value =>
      intro a rest _
      rw [parseValue.eq_def]
      cases value <;> rfl
  | number levels n =>
      intro a rest ha
      cases hsized with
      | number _ hn =>
          have hread := parseNumber_intText hstrtod hn a rest ha
          rcases intText_cons n with ⟨b, text, htext, hb⟩
          rw [htext, List.cons_append] at hread
          rw [valueText, htext, List.cons_append, parseValue_number _ _ hb,
            hread]
  | string levels s =>
      intro a rest _
      have hread := parseString_stringText s (a :: rest)
      rw [valueText]
      change parseValue strtod levels (quote :: _) = _
      rw [parseValue_quote]
      change Option.map _ (parseString (stringText s ++ a :: rest)) = _
      rw [hread]
      rfl
  | array levels items hitems ih =>
      intro a rest _
      cases hsized with
      | array _ hsized =>
          have hread := parseList_items (parseValue_shrinks strtod _) format
            (depth + 1)
            (fun item hitem => ih item hitem (hsized item hitem) (depth + 1))
            (a :: rest)
          rw [valueText, List.cons_append, List.cons_append,
            parseValue_bracket, List.append_assoc, List.singleton_append,
            hread]
          rfl
  | object levels members hmembers ih =>
      intro a rest _
      cases hsized with
      | object _ hsized =>
          have hread := parseList_members (parseValue_shrinks strtod _) format
            (depth + 1) (fun m hm => ih m hm (hsized m hm) (depth + 1))
            (blank_formatted format (blank_singleton (b := newline) (by decide)))
            (blank_formatted format (blank_tabs depth)) (a :: rest)
          simp only [valueText, List.cons_append]
          rw [parseValue_brace, List.append_assoc _ [closeBrace],
            List.singleton_append, hread]
          rfl

theorem escapeByte_noNul (b : UInt8) : 0 ∉ escapeByte b := by
  revert b
  apply forall_byte
  decide +kernel

theorem stringText_noNul (s : CStr) : 0 ∉ stringText s := by
  simp only [stringText, List.mem_append, List.mem_cons, List.mem_flatMap,
    List.not_mem_nil, or_false]
  rintro ((h | ⟨b, -, h⟩) | h)
  · revert h
    decide
  · exact escapeByte_noNul b h
  · revert h
    decide

theorem intText_noNul (n : Int) : 0 ∉ intText n := by
  intro h
  have := intText_numberBytes n 0 h
  revert this
  decide

theorem formatted_noNul (format : Bool) {text : List UInt8} (h : 0 ∉ text) :
    0 ∉ formatted format text := by
  cases format with
  | true => exact h
  | false => simp [formatted]

theorem newline_noNul : 0 ∉ [newline] := by decide

theorem tab_noNul : 0 ∉ [tab] := by decide

theorem space_noNul : 0 ∉ [space] := by decide

theorem tabs_noNul (depth : Nat) : 0 ∉ tabs depth := by
  intro h
  have := List.eq_of_mem_replicate h
  revert this
  decide

theorem punctuation_ne_zero :
    (0 : UInt8) ≠ comma ∧ (0 : UInt8) ≠ colon ∧ (0 : UInt8) ≠ openBracket ∧
      (0 : UInt8) ≠ closeBracket ∧ (0 : UInt8) ≠ openBrace ∧
      (0 : UInt8) ≠ closeBrace := by
  decide

mutual

theorem valueText_noNul (format : Bool) (depth : Nat) (v : CJson) :
    0 ∉ valueText format depth v := by
  match v with
  | .null => exact CStr.noNul _
  | .bool false => exact CStr.noNul _
  | .bool true => exact CStr.noNul _
  | .number n => exact intText_noNul n
  | .string s => exact stringText_noNul s
  | .array items =>
      have hitems := itemsText_noNul format (depth + 1) items
      simp [valueText, hitems, punctuation_ne_zero]
  | .object members =>
      have hmembers := membersText_noNul format (depth + 1) members
      have hnewline := formatted_noNul format newline_noNul
      have htabs := formatted_noNul format (tabs_noNul depth)
      simp [valueText, hmembers, hnewline, htabs, punctuation_ne_zero]

theorem itemsText_noNul (format : Bool) (depth : Nat) (items : List CJson) :
    0 ∉ itemsText format depth items := by
  match items with
  | [] => simp [itemsText]
  | item :: items =>
      have hitem := valueText_noNul format depth item
      have hitems := itemsText_noNul format depth items
      have hspace := formatted_noNul format space_noNul
      rw [itemsText]
      split_ifs <;> simp [hitem, hitems, hspace, punctuation_ne_zero]

theorem membersText_noNul (format : Bool) (depth : Nat)
    (members : List (CStr × CJson)) : 0 ∉ membersText format depth members := by
  match members with
  | [] => simp [membersText]
  | (key, value) :: members =>
      have hvalue := valueText_noNul format depth value
      have hmembers := membersText_noNul format depth members
      have hkey := stringText_noNul key
      have htab := formatted_noNul format tab_noNul
      have hnewline := formatted_noNul format newline_noNul
      have htabs := formatted_noNul format (tabs_noNul depth)
      rw [membersText]
      split_ifs <;>
        simp [hvalue, hmembers, hkey, htab, hnewline, htabs,
          punctuation_ne_zero]

end

def strtodDecimal : Strtod := fun input =>
  let negative := input.head? = some minus
  let digits := (if negative then input.tail else input).takeWhile
    fun b => 48 ≤ b && b ≤ 57
  let value : Nat := digits.foldl (fun n b => 10 * n + (b.toNat - 48)) 0
  if digits = [] then (.finite 0, 0)
  else if negative then (.finite (-(value : Int)), digits.length + 1)
  else (.finite (value : Int), digits.length)

theorem foldl_digits (digits : List Nat) (h : ∀ d ∈ digits, d < 10) :
    (digits.reverse.map fun d => UInt8.ofNat (48 + d)).foldl
      (fun n b => 10 * n + (b.toNat - 48)) 0 = Nat.ofDigits 10 digits := by
  induction digits with
  | nil => rfl
  | cons d digits ih =>
      have hd := h d List.mem_cons_self
      have hbyte : (UInt8.ofNat (48 + d)).toNat = 48 + d := by
        rw [UInt8.toNat_ofNat']
        omega
      rw [List.reverse_cons, List.map_append, List.foldl_append,
        ih fun d' hd' => h d' (List.mem_cons_of_mem _ hd')]
      simp only [List.map_cons, List.map_nil, List.foldl_cons, List.foldl_nil,
        hbyte, Nat.ofDigits_cons]
      omega

theorem foldl_decimal (n : Nat) :
    (decimal n).foldl (fun n b => 10 * n + (b.toNat - 48)) 0 = n := by
  unfold decimal
  split_ifs with hzero
  · rw [hzero]
    rfl
  · rw [foldl_digits _ fun d hd => Nat.digits_lt_base (by omega) hd,
      Nat.ofDigits_digits]

theorem takeWhile_decimal (n : Nat) :
    (decimal n).takeWhile (fun b => 48 ≤ b && b ≤ 57) = decimal n := by
  rw [List.takeWhile_eq_self_iff]
  intro b hb
  simpa using (decimal_digits n b hb).2

theorem readsInts_strtodDecimal : ReadsInts strtodDecimal := by
  intro n _
  cases n with
  | ofNat n =>
      have hhead : (decimal n).head? ≠ some minus := by
        intro h
        have hdigit := decimal_digits n minus (List.mem_of_mem_head? h)
        revert hdigit
        decide
      simp only [strtodDecimal, intText, hhead, if_false,
        takeWhile_decimal, foldl_decimal, if_neg (decimal_ne_nil n)]
      rfl
  | negSucc n =>
      simp only [strtodDecimal, intText, List.head?_cons, if_true,
        List.tail_cons, takeWhile_decimal, foldl_decimal,
        if_neg (decimal_ne_nil (n + 1))]
      rfl

/-! ## Round trip -/

theorem cJSONPrint_eq (format : Bool) (v : CJson)
    (hfits : (valueText format 0 v).length + 2 ≤ intMax.toNat) :
    cJSONPrint format v = some (valueText format 0 v) := by
  rw [cJSONPrint, (writes_printValue format 0 v).fits [] (by simpa using hfits),
    List.nil_append]

theorem valueText_of_cJSONPrint {format : Bool} {v : CJson}
    {text : List UInt8} (h : cJSONPrint format v = some text) :
    text = valueText format 0 v := by
  rw [(writes_printValue format 0 v).only [] text h, List.nil_append]

theorem cJSONParse_valueText {strtod : Strtod} (hstrtod : ReadsInts strtod)
    (format : Bool) {v : CJson} (hv : Accepted cjsonNestingLimit v) :
    cJSONParse strtod (.ofBytes (valueText format 0 v)) = some v := by
  have hbytes : (CStr.ofBytes (valueText format 0 v)).bytes =
      valueText format 0 v :=
    congrArg CStr.bytes
      (CStr.ofBytes_bytes ⟨_, valueText_noNul format 0 v⟩)
  have hread := parseValue_reads hstrtod format hv.2 hv.1 0 0 []
    (by unfold notNumber; decide)
  rcases valueText_head format 0 v with ⟨b, text, htext, hb, hascii, -⟩
  have hbom : ∀ rest, skipUtf8Bom (b :: rest) = b :: rest := by
    intro rest
    apply if_neg
    rintro ⟨-, h⟩
    rw [(List.cons.inj h).1] at hascii
    revert hascii
    decide
  have hskip : ∀ rest, bufferSkipWhitespace (b :: rest) = b :: rest :=
    bufferSkipWhitespace_gt hb
  rw [cJSONParse, hbytes, htext, List.cons_append, hbom, hskip,
    ← List.cons_append, ← htext, hread]
  rfl

/-- Formatted or not, a tree that the printer writes is read back. -/
theorem cJSONParse_cJSONPrint {strtod : Strtod} (hstrtod : ReadsInts strtod)
    (format : Bool) {v : CJson} (hsized : v.IntSized)
    (hnests : v.NestsWithin cjsonNestingLimit) {text : List UInt8}
    (hprint : cJSONPrint format v = some text) :
    cJSONParse strtod (.ofBytes text) = some v := by
  rw [valueText_of_cJSONPrint hprint]
  exact cJSONParse_valueText hstrtod format ⟨hsized, hnests⟩

theorem cJSONParse_cJSONPrint_array :
    cJSONParse strtodDecimal (.ofBytes (CStr.lit "[-70, \"a\\nb\"]").bytes) =
      some (.array [.number (-70), .string (.lit "a\nb")]) := by
  have hitems : ∀ item ∈ [CJson.number (-70), .string (.lit "a\nb")],
      item.IntSized ∧ item.NestsWithin 999 := by
    intro item hitem
    simp only [List.mem_cons, List.not_mem_nil, or_false] at hitem
    rcases hitem with rfl | rfl
    · exact ⟨.number _ (by unfold IsInt intMin intMax; omega), .number _ _⟩
    · exact ⟨.string _, .string _ _⟩
  exact cJSONParse_cJSONPrint readsInts_strtodDecimal true
    (.array _ fun item hitem => (hitems item hitem).1)
    (.array 999 _ fun item hitem => (hitems item hitem).2)
    (by decide +kernel)

end EzRouter
