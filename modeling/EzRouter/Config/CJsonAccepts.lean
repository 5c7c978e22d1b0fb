import EzRouter.Config.CJsonParse

/-!
# What the parser accepts

No scanner hands back more than it was given, so the loops over items never
run out of turns; and the trees that come out hold numbers that fit an `int`
and are no deeper than the nesting limit, whatever `strtod` answers.
-/

namespace EzRouter

open EzRouter.Foundation Ascii

inductive CJson.NestsWithin : Nat → CJson → Prop where
  | null (levels : Nat) : NestsWithin levels .null
  | bool (levels : Nat) (value : Bool) : NestsWithin levels (.bool value)
  | number (levels : Nat) (n : Int) : NestsWithin levels (.number n)
  | string (levels : Nat) (s : CStr) : NestsWithin levels (.string s)
  | array (levels : Nat) (items : List CJson)
      (h : ∀ item ∈ items, NestsWithin levels item) :
      NestsWithin (levels + 1) (.array items)
  | object (levels : Nat) (members : List (CStr × CJson))
      (h : ∀ member ∈ members, NestsWithin levels member.2) :
      NestsWithin (levels + 1) (.object members)

theorem length_bufferSkipWhitespace_le (input : List UInt8) :
    (bufferSkipWhitespace input).length ≤ input.length := by
  have hle := (List.dropWhile_sublist (· ≤ (32 : UInt8)) (l := input)).length_le
  unfold bufferSkipWhitespace
  split
  · simp
  · rename_i hdrop
    rwa [hdrop] at hle

theorem scanString_shrinks : Reader.Shrinks scanString := by
  intro input
  induction input using scanString.induct with
  | case1 =>
      intro body rest h
      simp [scanString] at h
  | case2 input =>
      intro body rest h
      rw [scanString.eq_def] at h
      cases h
      simp
  | case3 hquote =>
      intro body rest h
      simp [scanString, hquote] at h
  | case4 _ c input ih =>
      intro body rest h
      rw [scanString.eq_def] at h
      rcases Option.map_eq_some_iff.1 h with ⟨⟨body', rest'⟩, hscan, heq⟩
      cases heq
      have hle := ih _ _ hscan
      simp only [List.length_cons]
      omega
  | case5 b input hquote hbackslash ih =>
      intro body rest h
      rw [scanString.eq_def] at h
      simp only [if_neg hquote, if_neg hbackslash] at h
      rcases Option.map_eq_some_iff.1 h with ⟨⟨body', rest'⟩, hscan, heq⟩
      cases heq
      have hle := ih _ _ hscan
      simp only [List.length_cons]
      omega

theorem parseString_shrinks : Reader.Shrinks parseString := by
  intro input s rest h
  unfold parseString at h
  split at h
  · cases h
  · rename_i b input'
    split_ifs at h
    split at h
    · cases h
    · rename_i body rest' hscan
      rcases Option.map_eq_some_iff.1 h with ⟨out, -, heq⟩
      cases heq
      have hle := scanString_shrinks _ _ _ hscan
      rw [List.length_cons]
      omega

theorem parseNumber_shrinks (strtod : Strtod) :
    (parseNumber strtod).Shrinks := by
  intro input v rest h
  simp only [parseNumber] at h
  split_ifs at h
  cases h
  simp

theorem parseElement_shrinks {value : Reader UInt8 CJson}
    (hvalue : value.Shrinks) : (parseElement value).Shrinks := by
  intro input v rest h
  rcases Option.map_eq_some_iff.1 h with ⟨⟨v', rest'⟩, hread, heq⟩
  cases heq
  have hle := hvalue _ _ _ hread
  have hbefore := length_bufferSkipWhitespace_le input
  have hafter := length_bufferSkipWhitespace_le rest'
  change (bufferSkipWhitespace rest').length ≤ _
  omega

theorem parseMember_cases {value : Reader UInt8 CJson}
    {input rest : List UInt8} {member : CStr × CJson}
    (h : parseMember value input = some (member, rest)) :
    ∃ afterKey input',
      parseString (bufferSkipWhitespace input) = some (member.1, afterKey) ∧
      bufferSkipWhitespace afterKey = colon :: input' ∧
      parseElement value input' = some (member.2, rest) := by
  unfold parseMember at h
  split at h
  · cases h
  · rename_i key afterKey hkey
    split at h
    · cases h
    · rename_i b input' hskip
      split_ifs at h with hcolon
      rcases Option.map_eq_some_iff.1 h with ⟨⟨v, rest'⟩, hread, heq⟩
      cases heq
      rw [Classical.not_not.1 hcolon] at hskip
      exact ⟨afterKey, input', hkey, hskip, hread⟩

theorem parseMember_shrinks {value : Reader UInt8 CJson}
    (hvalue : value.Shrinks) : (parseMember value).Shrinks := by
  intro input member rest h
  rcases parseMember_cases h with ⟨afterKey, input', hkey, hskip, hread⟩
  have hinput := length_bufferSkipWhitespace_le input
  have hstring := parseString_shrinks _ _ _ hkey
  have hafter := length_bufferSkipWhitespace_le afterKey
  rw [hskip, List.length_cons] at hafter
  have helement := parseElement_shrinks hvalue _ _ _ hread
  omega

theorem parseList_cases {β : Type} {item : Reader UInt8 β} {close : UInt8}
    {input rest : List UInt8} {values : List β}
    (h : parseList item close input = some (values, rest)) :
    (bufferSkipWhitespace input = close :: rest ∧ values = []) ∨
      item.sepBy comma close ((bufferSkipWhitespace input).length + 1)
        (bufferSkipWhitespace input) = some (values, rest) := by
  unfold parseList at h
  split at h
  · cases h
  · rename_i b input' hskip
    rw [hskip]
    split_ifs at h with hclose
    · cases h
      rw [hclose]
      exact .inl ⟨rfl, rfl⟩
    · exact .inr h

theorem parseList_shrinks {β : Type} {item : Reader UInt8 β} {close : UInt8}
    (hitem : item.Shrinks) : (parseList item close).Shrinks := by
  intro input values rest h
  have hinput := length_bufferSkipWhitespace_le input
  rcases parseList_cases h with ⟨hskip, -⟩ | hloop
  · rw [hskip, List.length_cons] at hinput
    omega
  · have hlt := Reader.sepBy_shrinks hitem _ _ _ _ hloop
    omega

def ReadsFlat (strtod : Strtod) (input rest : List UInt8) (v : CJson) : Prop :=
  (∃ n, rest = input.drop n ∧ (v = .null ∨ ∃ value, v = .bool value)) ∨
  (∃ s, parseString input = some (s, rest) ∧ v = .string s) ∨
  parseNumber strtod input = some (v, rest)

theorem parseValue_cases {strtod : Strtod} {levels : Nat}
    {input rest : List UInt8} {v : CJson}
    (h : parseValue strtod levels input = some (v, rest)) :
    ReadsFlat strtod input rest v ∨
    ∃ left b input', levels = left + 1 ∧ input = b :: input' ∧
      ((∃ items, v = .array items ∧
          parseList (parseElement (parseValue strtod left)) closeBracket
            input' = some (items, rest)) ∨
        ∃ members, v = .object members ∧
          parseList (parseMember (parseValue strtod left)) closeBrace
            input' = some (members, rest)) := by
  rw [parseValue.eq_def] at h
  split_ifs at h with hnull hfalse htrue
  · cases h
    exact .inl (.inl ⟨4, rfl, .inl rfl⟩)
  · cases h
    exact .inl (.inl ⟨5, rfl, .inr ⟨_, rfl⟩⟩)
  · cases h
    exact .inl (.inl ⟨4, rfl, .inr ⟨_, rfl⟩⟩)
  · split at h
    · cases h
    · rename_i b input'
      split_ifs at h with hquote hnumber hbracket hbrace
      · rcases Option.map_eq_some_iff.1 h with ⟨⟨s, rest'⟩, hread, heq⟩
        cases heq
        exact .inl (.inr (.inl ⟨s, hread, rfl⟩))
      · exact .inl (.inr (.inr h))
      · split at h
        · cases h
        · rename_i left
          rcases Option.map_eq_some_iff.1 h with ⟨⟨items, rest'⟩, hread, heq⟩
          cases heq
          exact .inr ⟨left, b, input', rfl, rfl, .inl ⟨items, rfl, hread⟩⟩
      · split at h
        · cases h
        · rename_i left
          rcases Option.map_eq_some_iff.1 h with
            ⟨⟨members, rest'⟩, hread, heq⟩
          cases heq
          exact .inr ⟨left, b, input', rfl, rfl, .inr ⟨members, rfl, hread⟩⟩

theorem length_flat {strtod : Strtod} {input rest : List UInt8} {v : CJson}
    (h : ReadsFlat strtod input rest v) : rest.length ≤ input.length := by
  rcases h with ⟨n, rfl, -⟩ | ⟨s, hstring, -⟩ | hnumber
  · simp
  · exact parseString_shrinks _ _ _ hstring
  · exact parseNumber_shrinks _ _ _ _ hnumber

theorem parseValue_shrinks (strtod : Strtod) (levels : Nat) :
    (parseValue strtod levels).Shrinks := by
  induction levels with
  | zero =>
      intro input v rest h
      rcases parseValue_cases h with hflat | ⟨left, b, input', hlevels, -⟩
      · exact length_flat hflat
      · cases hlevels
  | succ levels ih =>
      intro input v rest h
      rcases parseValue_cases h with hflat |
        ⟨left, b, input', hlevels, rfl, ⟨items, -, hlist⟩ | ⟨members, -, hlist⟩⟩
      · exact length_flat hflat
      · cases hlevels
        have hle := parseList_shrinks (parseElement_shrinks ih) _ _ _ hlist
        rw [List.length_cons]
        omega
      · cases hlevels
        have hle := parseList_shrinks (parseMember_shrinks ih) _ _ _ hlist
        rw [List.length_cons]
        omega

/-! ## What the values are -/

theorem isInt_toInt (d : Double) : IsInt d.toInt := by
  unfold IsInt
  cases d with
  | infinite negative => cases negative <;> decide
  | finite value =>
      simp only [Double.toInt]
      split_ifs with hmax hmin
      · decide
      · decide
      · -- Truncation is monotone, and the bounds are whole numbers.
        have hden : (0 : Int) < value.den := by exact_mod_cast value.den_pos
        have hupper : value.num ≤ intMax * value.den := by
          have hle := (Rat.le_iff _ _).1 (not_le.1 hmax).le
          simpa using hle
        have hlower : intMin * value.den ≤ value.num := by
          have hle := (Rat.le_iff _ _).1 (not_le.1 hmin).le
          simpa using hle
        have hle := Int.tdiv_le_tdiv hden hupper
        have hge := Int.tdiv_le_tdiv hden hlower
        rw [Int.mul_tdiv_cancel _ hden.ne'] at hle hge
        exact ⟨hge, hle⟩

theorem parseElement_yields {value : Reader UInt8 CJson} {good : CJson → Prop}
    (hvalue : value.Yields good) : (parseElement value).Yields good := by
  intro input v rest h
  rcases Option.map_eq_some_iff.1 h with ⟨⟨v', rest'⟩, hread, heq⟩
  cases heq
  exact hvalue _ _ _ hread

theorem parseMember_yields {value : Reader UInt8 CJson} {good : CJson → Prop}
    (hvalue : value.Yields good) :
    (parseMember value).Yields fun member => good member.2 := by
  intro input member rest h
  rcases parseMember_cases h with ⟨afterKey, input', -, -, hread⟩
  exact parseElement_yields hvalue _ _ _ hread

theorem parseList_yields {β : Type} {item : Reader UInt8 β} {close : UInt8}
    {good : β → Prop} (hitem : item.Yields good) :
    (parseList item close).Yields fun values =>
      ∀ value ∈ values, good value := by
  intro input values rest h
  rcases parseList_cases h with ⟨-, rfl⟩ | hloop
  · simp
  · exact Reader.sepBy_yields hitem _ _ _ _ hloop

def Accepted (levels : Nat) (v : CJson) : Prop :=
  v.IntSized ∧ v.NestsWithin levels

theorem accepted_flat {strtod : Strtod} {input rest : List UInt8} {v : CJson}
    (levels : Nat)
    (h : ReadsFlat strtod input rest v) : Accepted levels v := by
  rcases h with ⟨-, -, rfl | ⟨value, rfl⟩⟩ | ⟨s, -, rfl⟩ | hnumber
  · exact ⟨.null, .null levels⟩
  · exact ⟨.bool value, .bool levels value⟩
  · exact ⟨.string s, .string levels s⟩
  · simp only [parseNumber] at hnumber
    split_ifs at hnumber
    cases hnumber
    exact ⟨.number _ (isInt_toInt _), .number levels _⟩

theorem parseValue_yields (strtod : Strtod) (levels : Nat) :
    (parseValue strtod levels).Yields (Accepted levels) := by
  induction levels with
  | zero =>
      intro input v rest h
      rcases parseValue_cases h with hflat | ⟨left, b, input', hlevels, -⟩
      · exact accepted_flat 0 hflat
      · cases hlevels
  | succ levels ih =>
      intro input v rest h
      rcases parseValue_cases h with hflat |
        ⟨left, b, input', hlevels, -, ⟨items, rfl, hlist⟩ |
          ⟨members, rfl, hlist⟩⟩
      · exact accepted_flat _ hflat
      · cases hlevels
        have hall := parseList_yields (parseElement_yields ih) _ _ _ hlist
        exact ⟨.array _ fun item hitem => (hall item hitem).1,
          .array _ _ fun item hitem => (hall item hitem).2⟩
      · cases hlevels
        have hall := parseList_yields (parseMember_yields ih) _ _ _ hlist
        exact ⟨.object _ fun member hmember => (hall member hmember).1,
          .object _ _ fun member hmember => (hall member hmember).2⟩

/-- Whatever the text and the C library, the tree fits. -/
theorem cJSONParse_accepted {strtod : Strtod} {text : CStr} {root : CJson}
    (h : cJSONParse strtod text = some root) :
    Accepted cjsonNestingLimit root := by
  rcases Option.map_eq_some_iff.1 h with ⟨⟨v, rest⟩, hread, heq⟩
  cases heq
  exact parseValue_yields strtod _ _ _ _ hread

def nestedText : CStr := .lit "[\"a\",[]]"

theorem nestedText_isSome :
    (cJSONParse (fun _ => (.finite 0, 0)) nestedText).isSome := by
  decide +kernel

theorem cJSONParse_accepted_nested :
    Accepted cjsonNestingLimit
      ((cJSONParse (fun _ => (.finite 0, 0)) nestedText).get
        nestedText_isSome) :=
  cJSONParse_accepted (Option.some_get nestedText_isSome).symm

end EzRouter
