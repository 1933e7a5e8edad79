/-
  The colours of the app: `UIColor.init(hexString:)`.

  It reads three, six or eight hexadecimal digits and ignores what stands around them.  No string
  makes it trap, and no component is above 255 (`hexString_total`); three digits stand for six, six
  for eight, and the digits of eight are the components (`hexString_forms`).
-/
import HeroQ.Lib.Hex
import Mathlib.Data.List.DropRight

namespace HeroQ

/-- What Foundation says of characters: which are in `CharacterSet.alphanumerics`, and the `count`
    of a string, which is that of its grapheme clusters.  Letters and digits of ASCII are
    alphanumeric, and each has a cluster of its own. -/
structure CharacterData where
  alphanumerics : Char → Bool
  count : List Char → ℕ
  alphanumerics_ascii : ∀ c, c.isAlphanum = true → alphanumerics c = true
  count_ascii : ∀ cs, (∀ c ∈ cs, c.isAlphanum = true) → count cs = cs.length
  length_le_count : ∀ cs rest, (∀ c ∈ cs, c.isAlphanum = true) → cs.length ≤ count (cs ++ rest)

/-- ASCII alone. -/
def CharacterData.ascii : CharacterData where
  alphanumerics := Char.isAlphanum
  count := List.length
  alphanumerics_ascii _ h := h
  count_ascii _ _ := rfl
  length_le_count cs rest _ := by simp

/-- `trimmingCharacters(in: CharacterSet.alphanumerics.inverted)` -/
def CharacterData.trimmed (C : CharacterData) (s : List Char) : List Char :=
  (s.dropWhile fun c => !C.alphanumerics c).rdropWhile fun c => !C.alphanumerics c

/-- The components of a colour, before they are divided by 255. -/
structure UIColor where
  a : UInt32
  r : UInt32
  g : UInt32
  b : UInt32
  deriving DecidableEq, Repr

namespace UIColor

/-- The optional prefix of a hexadecimal numeral, which the scanner skips. -/
def withoutPrefix : List Char → List Char
  | '0' :: 'x' :: hex => hex
  | '0' :: 'X' :: hex => hex
  | hex => hex

/-- `scanHexInt32(_:)` of a scanner on the string, into a variable that is zero. -/
def scanHexInt32 (hex : List Char) : UInt32 :=
  let value := Hex.value ((withoutPrefix hex).takeWhile Char.isHexDigit)
  if value < 2 ^ 32 then UInt32.ofNat value else UInt32.ofNat (2 ^ 32 - 1)

/-- `*` on `UInt32`, which traps if the product is out of range. -/
def mul (x y : UInt32) : Option UInt32 :=
  if x.toNat * y.toNat < 2 ^ 32 then some (x * y) else none

/-- `init(hexString:)` -/
def init (C : CharacterData) (hexString : String) : Option UIColor :=
  let hex := C.trimmed hexString.toList
  let int := scanHexInt32 hex
  match C.count hex with
  | 3 => do
    let r ← mul (int >>> 8) 17
    let g ← mul (int >>> 4 &&& 0xF) 17
    let b ← mul (int &&& 0xF) 17
    some ⟨255, r, g, b⟩
  | 6 => some ⟨255, int >>> 16, int >>> 8 &&& 0xFF, int &&& 0xFF⟩
  | 8 => some ⟨int >>> 24, int >>> 16 &&& 0xFF, int >>> 8 &&& 0xFF, int &&& 0xFF⟩
  | _ => some ⟨255, 0, 0, 0⟩

/-- `heroQPrimaryColor` -/
def heroQPrimaryColor (C : CharacterData) : Option UIColor := init C "#1E5CB3"

/-- `heroQSecondaryColor` -/
def heroQSecondaryColor (C : CharacterData) : Option UIColor := init C "#00A65F"

/-- `heroQBgColor` -/
def heroQBgColor (C : CharacterData) : Option UIColor := init C "#EBEBE3"

example : heroQPrimaryColor .ascii = some ⟨255, 0x1E, 0x5C, 0xB3⟩ := by decide

variable {C : CharacterData}

/-! ## The number scanned -/

/-- The digits that are scanned. -/
def scannedDigits (hex : List Char) : List Char := (withoutPrefix hex).takeWhile Char.isHexDigit

theorem isHexDigit_of_scanned {hex : List Char} {c : Char} (h : c ∈ scannedDigits hex) :
    c.isHexDigit = true := List.mem_takeWhile_imp h

/-- The prefix is of letters and digits. -/
theorem withoutPrefix_append (hex : List Char) :
    ∃ pre, (∀ c ∈ pre, c.isAlphanum = true) ∧ hex = pre ++ withoutPrefix hex := by
  unfold withoutPrefix
  split
  · exact ⟨['0', 'x'], List.all_eq_true.1 rfl, rfl⟩
  · exact ⟨['0', 'X'], List.all_eq_true.1 rfl, rfl⟩
  · exact ⟨[], by simp, rfl⟩

/-- No more digits are scanned than the string has characters. -/
theorem length_scannedDigits_le (C : CharacterData) (hex : List Char) :
    (scannedDigits hex).length ≤ C.count hex := by
  obtain ⟨pre, hpre, heq⟩ := withoutPrefix_append hex
  obtain ⟨rest, hrest⟩ := List.takeWhile_prefix (l := withoutPrefix hex) Char.isHexDigit
  have hascii : ∀ c ∈ pre ++ scannedDigits hex, c.isAlphanum = true := by
    intro c hc
    rcases List.mem_append.1 hc with hc | hc
    · exact hpre c hc
    · exact Hex.isAlphanum_of_isHexDigit (isHexDigit_of_scanned hc)
  have hle := C.length_le_count (pre ++ scannedDigits hex) rest hascii
  rw [List.append_assoc, scannedDigits, hrest, ← heq, List.length_append] at hle
  exact (Nat.le_add_left _ _).trans hle

/-- A string of at most eight characters scans without overflow. -/
theorem toNat_scanHexInt32 {hex : List Char} (h : (scannedDigits hex).length ≤ 8) :
    (scanHexInt32 hex).toNat = Hex.value (scannedDigits hex) := by
  have hvalue : Hex.value (scannedDigits hex) < 2 ^ 32 :=
    calc Hex.value (scannedDigits hex)
        < 16 ^ (scannedDigits hex).length := Hex.value_lt fun c hc => isHexDigit_of_scanned hc
      _ ≤ 16 ^ 8 := Nat.pow_le_pow_right (by decide) h
  show (if Hex.value (scannedDigits hex) < 2 ^ 32 then UInt32.ofNat (Hex.value (scannedDigits hex))
    else UInt32.ofNat (2 ^ 32 - 1)).toNat = _
  rw [if_pos hvalue]
  exact Nat.mod_eq_of_lt hvalue

theorem scanHexInt32_lt {hex : List Char} {n : ℕ} (hcount : C.count hex = n) (hn : n ≤ 8) :
    (scanHexInt32 hex).toNat < 16 ^ n := by
  have hlen : (scannedDigits hex).length ≤ n := hcount ▸ length_scannedDigits_le C hex
  rw [toNat_scanHexInt32 (hlen.trans hn)]
  exact (Hex.value_lt fun c hc => isHexDigit_of_scanned hc).trans_le
    (Nat.pow_le_pow_right (by decide) hlen)

/-! ## The components -/

/-- The components, as numbers. -/
def toNats (c : UIColor) : ℕ × ℕ × ℕ × ℕ := (c.a.toNat, c.r.toNat, c.g.toNat, c.b.toNat)

theorem toNat_and_0xFF (int : UInt32) : (int &&& 0xFF).toNat = int.toNat % 256 := by
  rw [UInt32.toNat_and]
  exact Nat.and_two_pow_sub_one_eq_mod int.toNat 8

theorem toNat_and_0xF (int : UInt32) : (int &&& 0xF).toNat = int.toNat % 16 := by
  rw [UInt32.toNat_and]
  exact Nat.and_two_pow_sub_one_eq_mod int.toNat 4

theorem toNat_shiftRight (int k : UInt32) (hk : k.toNat < 32) :
    (int >>> k).toNat = int.toNat / 2 ^ k.toNat := by
  rw [UInt32.toNat_shiftRight, Nat.mod_eq_of_lt hk, Nat.shiftRight_eq_div_pow]

/-- The product with 17 of a hexadecimal digit is in range. -/
theorem mul_17 {x : UInt32} (hx : x.toNat < 16) :
    ∃ y, mul x 17 = some y ∧ y.toNat = x.toNat * 17 := by
  have hlt : x.toNat * (17 : UInt32).toNat < 2 ^ 32 := by
    show x.toNat * 17 < 2 ^ 32
    omega
  exact ⟨x * 17, if_pos hlt, by rw [UInt32.toNat_mul]; exact Nat.mod_eq_of_lt hlt⟩

section
variable {hexString : String}

/-- What is read from eight characters. -/
theorem init_eight (hcount : C.count (C.trimmed hexString.toList) = 8) :
    let int := (scanHexInt32 (C.trimmed hexString.toList)).toNat
    ∃ c, init C hexString = some c ∧
      c.toNats = (int / 2 ^ 24, int / 2 ^ 16 % 256, int / 2 ^ 8 % 256, int % 256) := by
  intro int
  refine ⟨_, by simp only [init, hcount]; rfl, ?_⟩
  simp only [toNats, toNat_and_0xFF, toNat_shiftRight _ 24 (by decide),
    toNat_shiftRight _ 16 (by decide), toNat_shiftRight _ 8 (by decide)]
  rfl

/-- What is read from six characters. -/
theorem init_six (hcount : C.count (C.trimmed hexString.toList) = 6) :
    let int := (scanHexInt32 (C.trimmed hexString.toList)).toNat
    ∃ c, init C hexString = some c ∧
      c.toNats = (255, int / 2 ^ 16, int / 2 ^ 8 % 256, int % 256) := by
  intro int
  refine ⟨_, by simp only [init, hcount]; rfl, ?_⟩
  simp only [toNats, toNat_and_0xFF, toNat_shiftRight _ 16 (by decide),
    toNat_shiftRight _ 8 (by decide)]
  rfl

/-- What is read from three characters. -/
theorem init_three (hcount : C.count (C.trimmed hexString.toList) = 3) :
    let int := (scanHexInt32 (C.trimmed hexString.toList)).toNat
    ∃ c, init C hexString = some c ∧
      c.toNats = (255, int / 2 ^ 8 * 17, int / 2 ^ 4 % 16 * 17, int % 16 * 17) := by
  intro int
  have hlt : int < 16 ^ 3 := scanHexInt32_lt hcount (by decide)
  let scanned := scanHexInt32 (C.trimmed hexString.toList)
  have hr : (scanned >>> 8).toNat = int / 2 ^ 8 := toNat_shiftRight _ 8 (by decide)
  have hg : (scanned >>> 4 &&& 0xF).toNat = int / 2 ^ 4 % 16 := by
    rw [toNat_and_0xF, toNat_shiftRight _ 4 (by decide)]
    rfl
  have hb : (scanned &&& 0xF).toNat = int % 16 := toNat_and_0xF _
  obtain ⟨r, hr', hr17⟩ := mul_17 (x := scanned >>> 8) (by omega)
  obtain ⟨g, hg', hg17⟩ := mul_17 (x := scanned >>> 4 &&& 0xF) (by omega)
  obtain ⟨b, hb', hb17⟩ := mul_17 (x := scanned &&& 0xF) (by omega)
  refine ⟨⟨255, r, g, b⟩, ?_, ?_⟩
  · simp only [init, hcount]
    show ((mul (scanned >>> 8) 17).bind fun r => (mul (scanned >>> 4 &&& 0xF) 17).bind fun g =>
      (mul (scanned &&& 0xF) 17).bind fun b => some (⟨255, r, g, b⟩ : UIColor)) = _
    rw [hr', Option.bind_some, hg', Option.bind_some, hb', Option.bind_some]
  · rw [toNats, hr17, hg17, hb17, hr, hg, hb]
    rfl

end

/-- **No string makes the initializer trap**, and no component of the colour is above 255. -/
theorem hexString_total (C : CharacterData) (hexString : String) :
    ∃ c, init C hexString = some c ∧
      c.a.toNat ≤ 255 ∧ c.r.toNat ≤ 255 ∧ c.g.toNat ≤ 255 ∧ c.b.toNat ≤ 255 := by
  have hle : ∀ {c : UIColor} {a r g b : ℕ}, c.toNats = (a, r, g, b) →
      a ≤ 255 → r ≤ 255 → g ≤ 255 → b ≤ 255 →
      c.a.toNat ≤ 255 ∧ c.r.toNat ≤ 255 ∧ c.g.toNat ≤ 255 ∧ c.b.toNat ≤ 255 := by
    rintro c a r g b ⟨⟩ ha hr hg hb
    exact ⟨ha, hr, hg, hb⟩
  by_cases h8 : C.count (C.trimmed hexString.toList) = 8
  · have hlt := scanHexInt32_lt h8 (by decide)
    obtain ⟨c, hc, hnats⟩ := init_eight h8
    exact ⟨c, hc, hle hnats (by omega) (by omega) (by omega) (by omega)⟩
  by_cases h6 : C.count (C.trimmed hexString.toList) = 6
  · have hlt := scanHexInt32_lt h6 (by decide)
    obtain ⟨c, hc, hnats⟩ := init_six h6
    exact ⟨c, hc, hle hnats (by omega) (by omega) (by omega) (by omega)⟩
  by_cases h3 : C.count (C.trimmed hexString.toList) = 3
  · have hlt := scanHexInt32_lt h3 (by decide)
    obtain ⟨c, hc, hnats⟩ := init_three h3
    exact ⟨c, hc, hle hnats (by omega) (by omega) (by omega) (by omega)⟩
  · refine ⟨⟨255, 0, 0, 0⟩, ?_, by decide⟩
    rw [init]
    split
    · contradiction
    · contradiction
    · contradiction
    · rfl

/-! ## The forms -/

theorem ext_toNats {c c' : UIColor} (h : c.toNats = c'.toNats) : c = c' := by
  obtain ⟨ha, h⟩ := Prod.mk.inj h
  obtain ⟨hr, h⟩ := Prod.mk.inj h
  obtain ⟨hg, hb⟩ := Prod.mk.inj h
  cases c
  cases c'
  simp only [UIColor.mk.injEq]
  exact ⟨UInt32.toNat_inj.1 ha, UInt32.toNat_inj.1 hr, UInt32.toNat_inj.1 hg, UInt32.toNat_inj.1 hb⟩

/-- Digits have no prefix. -/
theorem scannedDigits_digits {digits : List Char} (h : ∀ c ∈ digits, c.isHexDigit = true) :
    scannedDigits digits = digits := by
  have hprefix : withoutPrefix digits = digits := by
    unfold withoutPrefix
    split
    · exact absurd (h 'x' (by simp)) (by decide)
    · exact absurd (h 'X' (by simp)) (by decide)
    · rfl
  rw [scannedDigits, hprefix]
  exact List.takeWhile_eq_self_iff.2 h

/-- The digits with other characters around them, none of them alphanumeric. -/
structure Around (C : CharacterData) (pre post : List Char) : Prop where
  pre : ∀ c ∈ pre, C.alphanumerics c = false
  post : ∀ c ∈ post, C.alphanumerics c = false

theorem trimmed_around {pre post : List Char} (h : Around C pre post) {digit : Char}
    {digits : List Char} (hdigits : ∀ c ∈ digit :: digits, c.isHexDigit = true) :
    C.trimmed (pre ++ (digit :: digits) ++ post) = digit :: digits := by
  have hpre : ∀ c ∈ pre, (!C.alphanumerics c) = true := fun c hc => by simp [h.pre c hc]
  have hpost : ∀ c ∈ post.reverse, (!C.alphanumerics c) = true :=
    fun c hc => by simp [h.post c (List.mem_reverse.1 hc)]
  have hkept : ∀ c ∈ digit :: digits, C.alphanumerics c = true :=
    fun c hc => C.alphanumerics_ascii c (Hex.isAlphanum_of_isHexDigit (hdigits c hc))
  have hfront : (pre ++ (digit :: digits) ++ post).dropWhile (fun c => !C.alphanumerics c) =
      (digit :: digits) ++ post := by
    rw [List.append_assoc, List.dropWhile_append_of_pos hpre, List.cons_append, List.dropWhile_cons,
      hkept digit List.mem_cons_self]
    rfl
  have hback : (digit :: digits).rdropWhile (fun c => !C.alphanumerics c) = digit :: digits :=
    List.rdropWhile_eq_self_iff.2 fun hne => by
      simpa using hkept _ (List.getLast_mem hne)
  rw [CharacterData.trimmed, hfront, List.rdropWhile, List.reverse_append,
    List.dropWhile_append_of_pos hpost]
  exact hback

section
variable {pre post : List Char} (h : Around C pre post)
include h

/-- What the initializer finds in digits with other characters around them. -/
theorem found_around {digit : Char} {digits : List Char}
    (hdigits : ∀ c ∈ digit :: digits, c.isHexDigit = true) (hlen : digits.length < 8) :
    C.count (C.trimmed (String.ofList (pre ++ (digit :: digits) ++ post)).toList) =
        digits.length + 1 ∧
      (scanHexInt32 (C.trimmed (String.ofList (pre ++ (digit :: digits) ++ post)).toList)).toNat =
        Hex.value (digit :: digits) := by
  have hascii : ∀ c ∈ digit :: digits, c.isAlphanum = true :=
    fun c hc => Hex.isAlphanum_of_isHexDigit (hdigits c hc)
  have hscanned := scannedDigits_digits hdigits
  rw [String.toList_ofList, trimmed_around h hdigits]
  refine ⟨C.count_ascii _ hascii, ?_⟩
  rw [toNat_scanHexInt32 (by rw [hscanned]; exact hlen), hscanned]

/-- Eight digits are the components: two digits each for alpha, red, green and blue. -/
theorem init_eight_digits {a₁ a₀ r₁ r₀ g₁ g₀ b₁ b₀ : Char}
    (hdigits : ∀ c ∈ [a₁, a₀, r₁, r₀, g₁, g₀, b₁, b₀], c.isHexDigit = true) :
    ∃ c, init C (String.ofList (pre ++ [a₁, a₀, r₁, r₀, g₁, g₀, b₁, b₀] ++ post)) = some c ∧
      c.toNats = (Hex.value [a₁, a₀], Hex.value [r₁, r₀], Hex.value [g₁, g₀],
        Hex.value [b₁, b₀]) := by
  obtain ⟨hcount, hint⟩ := found_around h hdigits (show 7 < 8 by decide)
  obtain ⟨c, hc, hnats⟩ := init_eight hcount
  refine ⟨c, hc, ?_⟩
  rw [hnats, hint]
  have hlt : ∀ d ∈ [a₁, a₀, r₁, r₀, g₁, g₀, b₁, b₀], Hex.digitValue d < 16 :=
    fun d hd => Hex.digitValue_lt (hdigits d hd)
  simp only [List.forall_mem_cons] at hlt
  simp only [Hex.value, List.foldl_cons, List.foldl_nil, Prod.mk.injEq]
  omega

/-- Six digits stand for eight. -/
theorem init_six_digits {r₁ r₀ g₁ g₀ b₁ b₀ : Char}
    (hdigits : ∀ c ∈ [r₁, r₀, g₁, g₀, b₁, b₀], c.isHexDigit = true) :
    init C (String.ofList (pre ++ [r₁, r₀, g₁, g₀, b₁, b₀] ++ post)) =
      init C (String.ofList (pre ++ ['F', 'F', r₁, r₀, g₁, g₀, b₁, b₀] ++ post)) := by
  have hdigits' : ∀ c ∈ ['F', 'F', r₁, r₀, g₁, g₀, b₁, b₀], c.isHexDigit = true :=
    List.forall_mem_cons.2 ⟨by decide, List.forall_mem_cons.2 ⟨by decide, hdigits⟩⟩
  obtain ⟨hcount, hint⟩ := found_around h hdigits (show 5 < 8 by decide)
  obtain ⟨hcount', hint'⟩ := found_around h hdigits' (show 7 < 8 by decide)
  obtain ⟨c, hc, hnats⟩ := init_six hcount
  obtain ⟨c', hc', hnats'⟩ := init_eight hcount'
  have hF : Hex.digitValue 'F' = 15 := by decide
  have hlt : ∀ d ∈ [r₁, r₀, g₁, g₀, b₁, b₀], Hex.digitValue d < 16 :=
    fun d hd => Hex.digitValue_lt (hdigits d hd)
  simp only [List.forall_mem_cons] at hlt
  rw [hc, hc', Option.some.injEq]
  refine ext_toNats ?_
  rw [hnats, hnats', hint, hint']
  simp only [Hex.value, List.foldl_cons, List.foldl_nil, Prod.mk.injEq, hF]
  omega

/-- Three digits stand for six. -/
theorem init_three_digits {x y z : Char} (hdigits : ∀ c ∈ [x, y, z], c.isHexDigit = true) :
    init C (String.ofList (pre ++ [x, y, z] ++ post)) =
      init C (String.ofList (pre ++ [x, x, y, y, z, z] ++ post)) := by
  have hdigits' : ∀ c ∈ [x, x, y, y, z, z], c.isHexDigit = true := by
    simpa using hdigits
  obtain ⟨hcount, hint⟩ := found_around h hdigits (show 2 < 8 by decide)
  obtain ⟨hcount', hint'⟩ := found_around h hdigits' (show 5 < 8 by decide)
  obtain ⟨c, hc, hnats⟩ := init_three hcount
  obtain ⟨c', hc', hnats'⟩ := init_six hcount'
  obtain ⟨hx, hy, hz, -⟩ : x.isHexDigit = true ∧ y.isHexDigit = true ∧ z.isHexDigit = true ∧ _ := by
    simpa only [List.forall_mem_cons] using hdigits
  -- a digit d stands for the byte 17 * d
  have hbyte : ∀ d : Char, Hex.value [d] * 17 = Hex.value [d, d] := by
    intro d
    simp only [Hex.value, List.foldl_cons, List.foldl_nil]
    ring
  have hr := Hex.value_append_div [x] (show ∀ c ∈ [y, z], c.isHexDigit = true by simp [hy, hz])
  have hg := Hex.value_append_div [x, y] (show ∀ c ∈ [z], c.isHexDigit = true by simp [hz])
  have hgx := Hex.value_append_mod [x] (show ∀ c ∈ [y], c.isHexDigit = true by simp [hy])
  have hb := Hex.value_append_mod [x, y] (show ∀ c ∈ [z], c.isHexDigit = true by simp [hz])
  have hr' := Hex.value_append_div [x, x]
    (show ∀ c ∈ [y, y, z, z], c.isHexDigit = true by simp [hy, hz])
  have hg' := Hex.value_append_div [x, x, y, y]
    (show ∀ c ∈ [z, z], c.isHexDigit = true by simp [hz])
  have hgx' := Hex.value_append_mod [x, x] (show ∀ c ∈ [y, y], c.isHexDigit = true by simp [hy])
  have hb' := Hex.value_append_mod [x, x, y, y]
    (show ∀ c ∈ [z, z], c.isHexDigit = true by simp [hz])
  simp only [List.cons_append, List.nil_append, List.length_cons, List.length_nil] at *
  norm_num at hr hg hgx hb hr' hg' hgx' hb'
  rw [hc, hc', Option.some.injEq]
  refine ext_toNats ?_
  rw [hnats, hnats', hint, hint']
  norm_num [hr, hg, hgx, hb, hr', hg', hgx', hb', hbyte]

/-- **The forms of a colour**, whatever stands around the digits that is not alphanumeric: three
    digits stand for six, each of them twice, six for eight, with full alpha, and eight are the
    components, two digits each for alpha, red, green and blue. -/
theorem hexString_forms {x y z : Char} (hrgb : ∀ c ∈ [x, y, z], c.isHexDigit = true)
    {a₁ a₀ r₁ r₀ g₁ g₀ b₁ b₀ : Char}
    (hargb : ∀ c ∈ [a₁, a₀, r₁, r₀, g₁, g₀, b₁, b₀], c.isHexDigit = true) :
    init C (String.ofList (pre ++ [x, y, z] ++ post)) =
        init C (String.ofList (pre ++ [x, x, y, y, z, z] ++ post)) ∧
      init C (String.ofList (pre ++ [r₁, r₀, g₁, g₀, b₁, b₀] ++ post)) =
        init C (String.ofList (pre ++ ['F', 'F', r₁, r₀, g₁, g₀, b₁, b₀] ++ post)) ∧
      ∃ c, init C (String.ofList (pre ++ [a₁, a₀, r₁, r₀, g₁, g₀, b₁, b₀] ++ post)) = some c ∧
        c.toNats = (Hex.value [a₁, a₀], Hex.value [r₁, r₀], Hex.value [g₁, g₀],
          Hex.value [b₁, b₀]) := by
  have hrgb' : ∀ c ∈ [r₁, r₀, g₁, g₀, b₁, b₀], c.isHexDigit = true :=
    fun c hc => hargb c (List.mem_cons_of_mem _ (List.mem_cons_of_mem _ hc))
  exact ⟨init_three_digits h hrgb, init_six_digits h hrgb', init_eight_digits h hargb⟩

end

/-- The colours `#8AC` and `#80FF00CC`. -/
theorem hexString_forms_grey :
    init .ascii "#8AC" = init .ascii "#88AACC" ∧
      ∃ c, init .ascii "#80FF00CC" = some c ∧ c.toNats = (128, 255, 0, 204) := by
  have h : Around .ascii ['#'] [] := ⟨fun c hc => by rw [List.mem_singleton.1 hc]; rfl, by simp⟩
  have hrgb : ∀ c ∈ ['8', 'A', 'C'], c.isHexDigit = true := List.all_eq_true.1 rfl
  have hargb : ∀ c ∈ ['8', '0', 'F', 'F', '0', '0', 'C', 'C'], c.isHexDigit = true :=
    List.all_eq_true.1 rfl
  obtain ⟨hthree, -, c, hc, hnats⟩ := hexString_forms h hrgb hargb
  exact ⟨hthree, c, hc, hnats⟩

end UIColor

end HeroQ
