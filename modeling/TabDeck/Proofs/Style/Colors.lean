import TabDeck.Proofs.Style.Chains
import TabDeck.Proofs.Text.Hex

namespace TabDeck.Style.Color

open TabDeck.Text

/-- Six digits make an opaque color, eight digits give alpha too. -/
inductive Spelled : List Char → Color → Prop
  | rgb {hex : List Char} {n : Nat} {c : Color} (length : hex.length = 6) (digits : Hex.Denotes hex n)
    (value : c.argb.toNat = 0xFF000000 + n) : Spelled hex c
  | argb {hex : List Char} {c : Color} (length : hex.length = 8) (digits : Hex.Denotes hex c.argb.toNat) : Spelled hex c

def Written (text : List Char) (c : Color) : Prop := ∃ hex, text = '#' :: hex ∧ Spelled hex c

/-- A plus sign behind the hash sign is taken for a zero. -/
def unsigned : List Char → List Char
  | '#' :: '+' :: digits => '#' :: '0' :: digits
  | text => text

section Reading

variable {hex text : List Char} {c : Color}

theorem signedHex?_of_head (h : hex.head? ≠ some '+') : signedHex? hex = Hex.number? hex := by
  unfold signedHex?
  split
  · exact absurd rfl h
  · rfl

theorem head?_ne_of_denotes {n : Nat} (h : Hex.Denotes hex n) : hex.head? ≠ some '+' := by
  intro hplus
  obtain ⟨digits, rfl⟩ := List.head?_eq_some_iff.mp hplus
  exact nomatch Hex.number?_eq_some_iff.mpr h

theorem Spelled.head?_ne (h : Spelled hex c) : hex.head? ≠ some '+' := by
  cases h with
  | rgb length digits value => exact head?_ne_of_denotes digits
  | argb length digits => exact head?_ne_of_denotes digits

theorem or_eq_add {high low k : Nat} (hhigh : 2 ^ k ∣ high) (hlow : low < 2 ^ k) : high ||| low = high + low := by
  obtain ⟨q, rfl⟩ := hhigh
  exact (Nat.two_pow_add_eq_or_of_lt hlow q).symm

theorem toNat_solid {n : Nat} (h : n < 16 ^ 6) : (0xFF000000 ||| n.toUInt32 : UInt32).toNat = 0xFF000000 + n := by
  have hn : n.toUInt32.toNat = n := UInt32.toNat_ofNat_of_lt' (h.trans (by decide))
  rw [UInt32.toNat_or, hn]
  exact or_eq_add (k := 24) (by decide) h

theorem toNat_argb {n : Nat} (h : n < 16 ^ 8) : n.toUInt32.toNat = n := UInt32.toNat_ofNat_of_lt' h

theorem ofChars?_hash (h : hex.head? ≠ some '+') : ofChars? ('#' :: hex) = some c ↔ Spelled hex c := by
  rw [ofChars?, signedHex?_of_head h]
  constructor
  · intro hc
    obtain ⟨n, hn, hlength⟩ := Option.bind_eq_some_iff.mp hc
    have hdigits := Hex.number?_eq_some_iff.mp hn
    have hlt := Hex.lt_of_denotes hdigits
    split at hlength
    · next h6 =>
      cases hlength
      exact .rgb h6 hdigits (toNat_solid (h6 ▸ hlt))
    · next h8 =>
      cases hlength
      refine .argb h8 ?_
      rwa [toNat_argb (h8 ▸ hlt)]
    · cases hlength
  · intro hc
    cases hc with
    | rgb h6 hdigits hvalue =>
      have hsolid := toNat_solid (h6 ▸ Hex.lt_of_denotes hdigits)
      rw [Hex.number?_eq_some_iff.mpr hdigits, h6]
      exact congrArg some (congrArg mk (UInt32.toNat_inj.mp (hsolid.trans hvalue.symm)))
    | argb h8 hdigits =>
      rw [Hex.number?_eq_some_iff.mpr hdigits, h8]
      exact congrArg some (congrArg mk UInt32.ofNat_toNat)

theorem ofChars?_of_spelled (h : Spelled hex c) : ofChars? ('#' :: hex) = some c := (ofChars?_hash h.head?_ne).mpr h

theorem written_hash : Written ('#' :: hex) c ↔ Spelled hex c := by
  constructor
  · rintro ⟨digits, hhex, hc⟩
    exact (List.cons.inj hhex).2 ▸ hc
  · intro hc
    exact ⟨hex, rfl, hc⟩

theorem ofChars?_of_unsigned (h : unsigned text = text) : ofChars? text = some c ↔ Written text c := by
  unfold ofChars?
  split
  · next hex =>
    have hhead : hex.head? ≠ some '+' := by
      intro hplus
      obtain ⟨digits, rfl⟩ := List.head?_eq_some_iff.mp hplus
      exact nomatch h
    exact (ofChars?_hash hhead).trans written_hash.symm
  · next hnone =>
    refine iff_of_false nofun ?_
    rintro ⟨hex, rfl, -⟩
    exact hnone hex rfl

theorem unsigned_unsigned (text : List Char) : unsigned (unsigned text) = unsigned text := by
  fun_cases unsigned text with
  | case1 digits => rfl
  | case2 text h =>
    rw [unsigned]
    exact h

theorem ofChars?_unsigned (text : List Char) : ofChars? (unsigned text) = ofChars? text := by
  unfold unsigned
  split <;> rfl

theorem ofChars?_eq_some_iff : ofChars? text = some c ↔ Written (unsigned text) c := by
  rw [← ofChars?_unsigned]
  exact ofChars?_of_unsigned (unsigned_unsigned text)

end Reading

section Parsing

variable {s : String}

theorem parse_eq (s : String) : parse s = (ofChars? s.toList).elim (.error ⟨s⟩) .ok := by
  rw [parse]
  cases ofChars? s.toList <;> rfl

theorem parse_of_spelled {hex : List Char} {c : Color} (hs : s.toList = '#' :: hex) (h : Spelled hex c) :
    parse s = .ok c := by
  rw [parse_eq, hs, ofChars?_of_spelled h, Option.elim_some]

theorem parse_written (s : String) :
    (∀ c, parse s = .ok c ↔ Written (unsigned s.toList) c) ∧
      ∀ e, parse s = .error e ↔ e = ⟨s⟩ ∧ ¬ ∃ c, Written (unsigned s.toList) c := by
  simp only [← ofChars?_eq_some_iff, parse_eq]
  cases ofChars? s.toList with
  | none => simp [eq_comm]
  | some c => simp

theorem not_written_plus : parse "#+12345" = .ok ⟨0xFF012345⟩ ∧ ¬ ∃ c, Written "#+12345".toList c := by
  refine ⟨rfl, ?_⟩
  rintro ⟨c, hex, hhex, hc⟩
  obtain rfl : "+12345".toList = hex := (List.cons.inj hhex).2
  exact hc.head?_ne rfl

end Parsing

section Writing

theorem toNat_shifted (x : UInt8) {k : UInt32} (hk : k.toNat ≤ 24) :
    (x.toUInt32 <<< k).toNat = x.toNat * 2 ^ k.toNat := by
  have hpow : 2 ^ k.toNat ≤ 2 ^ 24 := Nat.pow_le_pow_right (by decide) hk
  have hlt : x.toNat * 2 ^ k.toNat < 2 ^ 8 * 2 ^ 24 := Nat.mul_lt_mul_of_lt_of_le x.toNat_lt hpow (by decide)
  rw [UInt32.toNat_shiftLeft, UInt8.toNat_toUInt32, Nat.mod_eq_of_lt (hk.trans_lt (by decide)), Nat.shiftLeft_eq]
  exact Nat.mod_eq_of_lt hlt

theorem toNat_ofArgb (a r g b : UInt8) :
    (ofArgb a r g b).argb.toNat = a.toNat * 2 ^ 24 + r.toNat * 2 ^ 16 + g.toNat * 2 ^ 8 + b.toNat := by
  have ha : (a.toUInt32 <<< 24).toNat = a.toNat * 2 ^ 24 := toNat_shifted a (by decide)
  have hr : (r.toUInt32 <<< 16).toNat = r.toNat * 2 ^ 16 := toNat_shifted r (by decide)
  have hg : (g.toUInt32 <<< 8).toNat = g.toNat * 2 ^ 8 := toNat_shifted g (by decide)
  -- each component stays below the lowest bit of those in front of it, so that nothing is carried
  have hrlt := r.toNat_lt
  have hglt := g.toNat_lt
  have har : a.toNat * 2 ^ 24 ||| r.toNat * 2 ^ 16 = a.toNat * 2 ^ 24 + r.toNat * 2 ^ 16 :=
    or_eq_add (k := 24) (by omega) (by omega)
  have harg : a.toNat * 2 ^ 24 + r.toNat * 2 ^ 16 ||| g.toNat * 2 ^ 8 =
      a.toNat * 2 ^ 24 + r.toNat * 2 ^ 16 + g.toNat * 2 ^ 8 := or_eq_add (k := 16) (by omega) (by omega)
  simp only [ofArgb, UInt32.toNat_or, ha, hr, hg, UInt8.toNat_toUInt32, har, harg]
  exact or_eq_add (k := 8) (by omega) b.toNat_lt

def rgbDigits (r g b : UInt8) : List Char :=
  Hex.upperDigits 2 r.toNat ++ Hex.upperDigits 2 g.toNat ++ Hex.upperDigits 2 b.toNat

theorem spelled_rgbDigits (r g b : UInt8) : Spelled (rgbDigits r g b) (ofRgb r g b) := by
  have hlength (x : UInt8) : (Hex.upperDigits 2 x.toNat).length = 2 := Hex.length_upperDigits (by decide) x.toNat_lt
  have hdigits (x : UInt8) := Hex.denotes_upperDigits 2 x.toNat
  refine .rgb ?_ (Hex.denotes_append (Hex.denotes_append (hdigits r) (hdigits g)) (hdigits b)) ?_
  · simp only [rgbDigits, List.length_append, hlength]
  · rw [ofRgb, toNat_ofArgb, hlength, hlength]
    have h255 : (0xFF : UInt8).toNat = 255 := rfl
    omega

theorem Spelled.recased {hex hex' : List Char} {c : Color} (h : hex'.map Char.toLower = hex.map Char.toLower)
    (hc : Spelled hex c) : Spelled hex' c := by
  have hlength : hex'.length = hex.length := by
    rw [← List.length_map, h, List.length_map]
  cases hc with
  | rgb h6 hdigits hvalue => exact .rgb (hlength.trans h6) (hdigits.recased h) hvalue
  | argb h8 hdigits => exact .argb (hlength.trans h8) (hdigits.recased h)

theorem toLower_eq_iff {s t : String} :
    s.toLower = t.toLower ↔ s.toList.map Char.toLower = t.toList.map Char.toLower := by
  rw [← String.toList_map, ← String.toList_map, String.toList_inj]
  exact Iff.rfl

theorem parse_recased {s t : String} {hex : List Char} {c : Color} (hs : s.toLower = t.toLower)
    (ht : t.toList = '#' :: hex) (hc : Spelled hex c) : parse s = .ok c := by
  have hlower : s.toList.map Char.toLower = '#'.toLower :: hex.map Char.toLower := by
    rw [← List.map_cons, ← ht, ← toLower_eq_iff, hs]
  obtain ⟨hash, hex', hlist, hhash, hhex⟩ := List.map_eq_cons_iff.mp hlower
  obtain rfl : hash = '#' := Hex.eq_of_toLower_eq (by decide) hhash
  exact parse_of_spelled hlist (hc.recased hhex)

theorem toList_text (c : Color) : c.text.toList = '#' :: Hex.upperDigits 8 c.argb.toNat := String.toList_ofList

theorem spelled_text (c : Color) : Spelled (Hex.upperDigits 8 c.argb.toNat) c :=
  .argb (Hex.length_upperDigits (by decide) c.argb.toNat_lt) (Hex.denotes_upperDigits 8 c.argb.toNat)

theorem parse_text :
    (∀ (c : Color) (s : String), s.toLower = c.text.toLower → parse s = .ok c) ∧
      (∀ (r g b : UInt8) (s : String), s.toLower = (String.ofList ('#' :: rgbDigits r g b)).toLower →
        parse s = .ok (ofRgb r g b)) ∧
      ∀ (t : Theme) (attr : UInt32) (c : Color), t.resolve attr = some (.color c) →
        ∃ s, (t.text attr).1 = some s ∧ t.color attr = .ok c ∧ parse s = .ok c := by
  refine ⟨fun c s hs => ?_, fun r g b s hs => ?_, fun t attr c hc => ⟨c.text, ?_, ?_, ?_⟩⟩
  · exact parse_recased hs c.toList_text c.spelled_text
  · exact parse_recased hs String.toList_ofList (spelled_rgbDigits r g b)
  · rw [Theme.text, Theme.fst_coerced, hc]
    rfl
  · rw [Theme.color, Theme.require, hc]
    rfl
  · exact parse_of_spelled c.toList_text c.spelled_text

theorem parse_text_mixed :
    let t := (Theme.inheriting "dark" ((Theme.named "base").set 7 (.color black))).set 9 (.integer 5)
    ("#0033Ff9a".toLower = (text ⟨0x0033FF9A⟩).toLower ∧ parse "#0033Ff9a" = .ok ⟨0x0033FF9A⟩) ∧
      ("#fF9a00".toLower = (String.ofList ('#' :: rgbDigits 0xFF 0x9A 0)).toLower ∧
        parse "#fF9a00" = .ok (ofRgb 0xFF 0x9A 0)) ∧
      t.resolve 7 = some (.color black) ∧ ∃ s, (t.text 7).1 = some s ∧ t.color 7 = .ok black ∧ parse s = .ok black := by
  intro t
  obtain ⟨hargb, hrgb, htheme⟩ := parse_text
  have hlong : "#0033Ff9a".toLower = (text ⟨0x0033FF9A⟩).toLower := toLower_eq_iff.mpr (by decide)
  have hshort : "#fF9a00".toLower = (String.ofList ('#' :: rgbDigits 0xFF 0x9A 0)).toLower :=
    toLower_eq_iff.mpr (by decide)
  exact ⟨⟨hlong, hargb _ _ hlong⟩, ⟨hshort, hrgb _ _ _ _ hshort⟩, rfl, htheme t 7 black rfl⟩

end Writing

end TabDeck.Style.Color
