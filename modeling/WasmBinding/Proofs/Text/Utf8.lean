import WasmBinding.Text.Utf8

/-! Decoding of UTF-8. Characters are written as the standard library writes them, and are read back from any place where they
are written. Of other bytes, each part that begins a character and cannot be continued is read as one replacement. -/

namespace WasmBinding.Utf8

variable {c : Char} {b : UInt8} {p : Partial} {bytes part rest : List UInt8}

theorem toNat_valid (c : Char) : c.toNat < 0xd800 ∨ 0xdfff < c.toNat ∧ c.toNat < 0x110000 := c.valid

theorem encodeChar_one (few : c.toNat < 0x80) : encodeChar c = [UInt8.ofNat c.toNat] := by
  simp only [encodeChar, if_pos few]

theorem encodeChar_two (more : 0x80 ≤ c.toNat) (few : c.toNat < 0x800) :
    encodeChar c = [UInt8.ofNat (0xc0 + c.toNat / 64), UInt8.ofNat (0x80 + c.toNat % 64)] := by
  simp only [encodeChar, if_neg (Nat.not_lt.mpr more), if_pos few, Nat.shiftRight_eq_div_pow,
    Nat.reduceMul, Nat.reducePow, Nat.div_one]

theorem encodeChar_three (more : 0x800 ≤ c.toNat) (few : c.toNat < 0x10000) :
    encodeChar c = [UInt8.ofNat (0xe0 + c.toNat / 4096), UInt8.ofNat (0x80 + c.toNat / 64 % 64),
      UInt8.ofNat (0x80 + c.toNat % 64)] := by
  have more' : ¬ c.toNat < 0x80 := by omega
  simp only [encodeChar, if_neg more', if_neg (Nat.not_lt.mpr more), if_pos few, Nat.shiftRight_eq_div_pow,
    Nat.reduceMul, Nat.reducePow, Nat.div_one]

theorem encodeChar_four (more : 0x10000 ≤ c.toNat) :
    encodeChar c = [UInt8.ofNat (0xf0 + c.toNat / 262144), UInt8.ofNat (0x80 + c.toNat / 4096 % 64),
      UInt8.ofNat (0x80 + c.toNat / 64 % 64), UInt8.ofNat (0x80 + c.toNat % 64)] := by
  have more' : ¬ c.toNat < 0x80 := by omega
  have more'' : ¬ c.toNat < 0x800 := by omega
  simp only [encodeChar, if_neg more', if_neg more'', if_neg (Nat.not_lt.mpr more), Nat.shiftRight_eq_div_pow,
    Nat.reduceMul, Nat.reducePow, Nat.div_one]

/-- Characters are written as the standard library writes them. -/
theorem encodeChar_eq (c : Char) : encodeChar c = String.utf8EncodeChar c := by
  have valid := toNat_valid c
  have same : c.val.toNat = c.toNat := rfl
  simp only [String.utf8EncodeChar, same]
  by_cases one : c.toNat ≤ 127
  · rw [if_pos one, encodeChar_one (by omega)]
  · rw [if_neg one]
    by_cases two : c.toNat ≤ 2047
    · rw [if_pos two, encodeChar_two (by omega) (by omega)]
      simp only [List.cons.injEq, and_true]
      exact ⟨congrArg _ (by omega), congrArg _ (by omega)⟩
    · rw [if_neg two]
      by_cases three : c.toNat ≤ 65535
      · rw [if_pos three, encodeChar_three (by omega) (by omega)]
        simp only [List.cons.injEq, and_true]
        exact ⟨congrArg _ (by omega), congrArg _ (by omega), congrArg _ (by omega)⟩
      · rw [if_neg three, encodeChar_four (by omega)]
        simp only [List.cons.injEq, and_true]
        exact ⟨congrArg _ (by omega), congrArg _ (by omega), congrArg _ (by omega), congrArg _ (by omega)⟩

theorem toNat_ofNat (valid : n < 0xd800 ∨ 0xdfff < n ∧ n < 0x110000) : (Char.ofNat n).toNat = n := by
  rw [Char.ofNat, dif_pos valid]
  rfl

theorem eq_ofNat (same : n = c.toNat) : c = Char.ofNat n := by
  rw [same, Char.ofNat_toNat]

theorem ofNat_eq (same : n = b.toNat) : UInt8.ofNat n = b := by
  rw [same, UInt8.ofNat_toNat]

theorem lead_one (few : b.toNat < 0x80) : lead b = ([Char.ofNat b.toNat], none) := by
  simp only [lead, if_pos few]

theorem lead_two (low : 0xc2 ≤ b.toNat) (high : b.toNat < 0xe0) :
    lead b = ([], some ⟨0, 0x80, 0xbf, b.toNat - 0xc0⟩) := by
  have not_one : ¬ b.toNat < 0x80 := by omega
  simp only [lead, if_neg not_one, if_neg (Nat.not_lt.mpr low), if_pos high]

theorem lead_three (low : 0xe0 ≤ b.toNat) (high : b.toNat < 0xf0) :
    lead b = ([], some
      ⟨1, if b.toNat = 0xe0 then 0xa0 else 0x80, if b.toNat = 0xed then 0x9f else 0xbf, b.toNat - 0xe0⟩) := by
  have not_one : ¬ b.toNat < 0x80 := by omega
  have not_none : ¬ b.toNat < 0xc2 := by omega
  simp only [lead, if_neg not_one, if_neg not_none, if_neg (Nat.not_lt.mpr low), if_pos high]

theorem lead_four (low : 0xf0 ≤ b.toNat) (high : b.toNat < 0xf5) :
    lead b = ([], some
      ⟨2, if b.toNat = 0xf0 then 0x90 else 0x80, if b.toNat = 0xf4 then 0x8f else 0xbf, b.toNat - 0xf0⟩) := by
  have not_one : ¬ b.toNat < 0x80 := by omega
  have not_none : ¬ b.toNat < 0xc2 := by omega
  have not_two : ¬ b.toNat < 0xe0 := by omega
  simp only [lead, if_neg not_one, if_neg not_none, if_neg not_two, if_neg (Nat.not_lt.mpr low), if_pos high]

theorem lead_none (other : 0x80 ≤ b.toNat ∧ b.toNat < 0xc2 ∨ 0xf5 ≤ b.toNat) : lead b = ([replacement], none) := by
  have not_one : ¬ b.toNat < 0x80 := by omega
  rcases other with ⟨_, none⟩ | high
  · simp only [lead, if_neg not_one, if_pos none]
  · have not_none : ¬ b.toNat < 0xc2 := by omega
    have not_two : ¬ b.toNat < 0xe0 := by omega
    have not_three : ¬ b.toNat < 0xf0 := by omega
    simp only [lead, if_neg not_one, if_neg not_none, if_neg not_two, if_neg not_three, if_neg (Nat.not_lt.mpr high)]

/-- All that a first byte can be: a character, no part of one, or the first of two, three or four. -/
theorem byte_cases (b : UInt8) :
    b.toNat < 0x80 ∨ (0x80 ≤ b.toNat ∧ b.toNat < 0xc2 ∨ 0xf5 ≤ b.toNat) ∨ (0xc2 ≤ b.toNat ∧ b.toNat < 0xe0) ∨
      (0xe0 ≤ b.toNat ∧ b.toNat < 0xf0) ∨ 0xf0 ≤ b.toNat ∧ b.toNat < 0xf5 := by
  omega

/-- What follows when a character has begun, if it completes that character. -/
def Partial.Completes (c : Char) : Partial → List UInt8 → Prop
  | _, [] => False
  | p, b :: rest => (p.lo ≤ b.toNat ∧ b.toNat ≤ p.hi) ∧
    match p.more with
    | 0 => rest = [] ∧ c = Char.ofNat (p.value * 64 + b.toNat % 64)
    | more + 1 => Completes c ⟨more, 0x80, 0xbf, p.value * 64 + b.toNat % 64⟩ rest

theorem completes_zero :
    Partial.Completes c ⟨0, lo, hi, value⟩ rest ↔
      ∃ x, rest = [x] ∧ (lo ≤ x.toNat ∧ x.toNat ≤ hi) ∧ c = Char.ofNat (value * 64 + x.toNat % 64) := by
  cases rest with
  | nil => simp [Partial.Completes]
  | cons x rest =>
    simp only [Partial.Completes, List.cons.injEq]
    constructor
    · rintro ⟨bounds, rfl, same⟩
      exact ⟨x, ⟨rfl, rfl⟩, bounds, same⟩
    · rintro ⟨_, ⟨rfl, rfl⟩, bounds, same⟩
      exact ⟨bounds, rfl, same⟩

theorem completes_succ :
    Partial.Completes c ⟨more + 1, lo, hi, value⟩ rest ↔
      ∃ x tail, rest = x :: tail ∧ (lo ≤ x.toNat ∧ x.toNat ≤ hi) ∧
        Partial.Completes c ⟨more, 0x80, 0xbf, value * 64 + x.toNat % 64⟩ tail := by
  cases rest with
  | nil => simp [Partial.Completes]
  | cons x rest =>
    rw [Partial.Completes]
    constructor
    · rintro ⟨bounds, completes⟩
      exact ⟨x, rest, rfl, bounds, completes⟩
    · rintro ⟨_, _, same, bounds, completes⟩
      cases same
      exact ⟨bounds, completes⟩

/-- After some first bytes, not every byte that goes on with a character can be the second. -/
theorem second_iff {n x lo hi : Nat} (inner : 0x80 ≤ lo ∧ hi ≤ 0xbf) :
    ((if n = lowest then lo else 0x80) ≤ x ∧ x ≤ if n = highest then hi else 0xbf) ↔
      (0x80 ≤ x ∧ x ≤ 0xbf) ∧ (n = lowest → lo ≤ x) ∧ (n = highest → x ≤ hi) := by
  split <;> split <;> omega

/-- A character is a single byte, or a first byte and some that complete it. -/
theorem completes_of_encodeChar (written : encodeChar c = b :: rest) :
    (b.toNat < 0x80 ∧ c = Char.ofNat b.toNat ∧ rest = []) ∨ ∃ p, lead b = ([], some p) ∧ p.Completes c rest := by
  have valid := toNat_valid c
  have byte {n : Nat} (small : n < 256) : (UInt8.ofNat n).toNat = n := Nat.mod_eq_of_lt small
  by_cases one : c.toNat < 0x80
  · rw [encodeChar_one one] at written
    cases written
    exact .inl ⟨by rwa [byte (by omega)], by rw [byte (by omega), Char.ofNat_toNat], rfl⟩
  · right
    by_cases two : c.toNat < 0x800
    · rw [encodeChar_two (by omega) two] at written
      cases written
      have first := byte (n := 0xc0 + c.toNat / 64) (by omega)
      have second := byte (n := 0x80 + c.toNat % 64) (by omega)
      exact ⟨_, lead_two (by omega) (by omega), completes_zero.mpr ⟨_, rfl, by omega, eq_ofNat (by omega)⟩⟩
    · by_cases three : c.toNat < 0x10000
      · rw [encodeChar_three (by omega) three] at written
        cases written
        have first := byte (n := 0xe0 + c.toNat / 4096) (by omega)
        have second := byte (n := 0x80 + c.toNat / 64 % 64) (by omega)
        have third := byte (n := 0x80 + c.toNat % 64) (by omega)
        exact ⟨_, lead_three (by omega) (by omega),
          completes_succ.mpr ⟨_, _, rfl, (second_iff (by decide)).mpr (by omega),
            completes_zero.mpr ⟨_, rfl, by omega, eq_ofNat (by omega)⟩⟩⟩
      · rw [encodeChar_four (by omega)] at written
        cases written
        have first := byte (n := 0xf0 + c.toNat / 262144) (by omega)
        have second := byte (n := 0x80 + c.toNat / 4096 % 64) (by omega)
        have third := byte (n := 0x80 + c.toNat / 64 % 64) (by omega)
        have fourth := byte (n := 0x80 + c.toNat % 64) (by omega)
        exact ⟨_, lead_four (by omega) (by omega),
          completes_succ.mpr ⟨_, _, rfl, (second_iff (by decide)).mpr (by omega),
            completes_succ.mpr ⟨_, _, rfl, by omega, completes_zero.mpr ⟨_, rfl, by omega, eq_ofNat (by omega)⟩⟩⟩⟩

/-- Neither a longer form of a short character nor a surrogate nor a number that is too large can be completed. -/
theorem encodeChar_of_completes (begun : lead b = ([], some p)) (completes : p.Completes c rest) :
    encodeChar c = b :: rest := by
  rcases byte_cases b with one | none | ⟨low, high⟩ | ⟨low, high⟩ | ⟨low, high⟩
  · cases begun.symm.trans (lead_one one)
  · cases begun.symm.trans (lead_none none)
  · cases begun.symm.trans (lead_two low high)
    obtain ⟨x, rfl, bounds, rfl⟩ := completes_zero.mp completes
    have value := toNat_ofNat (n := (b.toNat - 0xc0) * 64 + x.toNat % 64) (by omega)
    rw [encodeChar_two (by omega) (by omega), value, ofNat_eq (b := b) (by omega), ofNat_eq (b := x) (by omega)]
  · cases begun.symm.trans (lead_three low high)
    obtain ⟨x, _, rfl, bounds, completes⟩ := completes_succ.mp completes
    obtain ⟨y, rfl, bounds', rfl⟩ := completes_zero.mp completes
    obtain ⟨second, lowest, highest⟩ := (second_iff (by decide)).mp bounds
    have value := toNat_ofNat (n := ((b.toNat - 0xe0) * 64 + x.toNat % 64) * 64 + y.toNat % 64) (by omega)
    rw [encodeChar_three (by omega) (by omega), value, ofNat_eq (b := b) (by omega), ofNat_eq (b := x) (by omega),
      ofNat_eq (b := y) (by omega)]
  · cases begun.symm.trans (lead_four low high)
    obtain ⟨x, _, rfl, bounds, completes⟩ := completes_succ.mp completes
    obtain ⟨y, _, rfl, bounds', completes⟩ := completes_succ.mp completes
    obtain ⟨z, rfl, bounds'', rfl⟩ := completes_zero.mp completes
    obtain ⟨second, lowest, highest⟩ := (second_iff (by decide)).mp bounds
    have value := toNat_ofNat
      (n := (((b.toNat - 0xf0) * 64 + x.toNat % 64) * 64 + y.toNat % 64) * 64 + z.toNat % 64) (by omega)
    rw [encodeChar_four (by omega), value, ofNat_eq (b := b) (by omega), ofNat_eq (b := x) (by omega),
      ofNat_eq (b := y) (by omega), ofNat_eq (b := z) (by omega)]

/-- All that complete the same beginning have one length. -/
theorem Partial.Completes.length (completes : p.Completes c part) : part.length = p.more + 1 := by
  induction part generalizing p with
  | nil => contradiction
  | cons b rest ih =>
    obtain ⟨more, lo, hi, value⟩ := p
    cases more with
    | zero =>
      obtain ⟨_, same, _⟩ := completes_zero.mp completes
      rw [same]
      rfl
    | succ more =>
      obtain ⟨_, _, same, _, completes⟩ := completes_succ.mp completes
      cases same
      rw [List.length_cons, ih completes]

/-- There is a byte to go on with. -/
def Partial.Open (p : Partial) : Prop := p.lo ≤ p.hi ∧ p.hi ≤ 0xbf

theorem open_of_lead (begun : lead b = ([], some p)) : p.Open := by
  rcases byte_cases b with one | none | ⟨low, high⟩ | ⟨low, high⟩ | ⟨low, high⟩
  · cases begun.symm.trans (lead_one one)
  · cases begun.symm.trans (lead_none none)
  · cases begun.symm.trans (lead_two low high)
    exact ⟨show 0x80 ≤ 0xbf by decide, Nat.le_refl _⟩
  · cases begun.symm.trans (lead_three low high)
    unfold Partial.Open
    dsimp only
    split <;> split <;> omega
  · cases begun.symm.trans (lead_four low high)
    unfold Partial.Open
    dsimp only
    split <;> split <;> omega

theorem exists_completes (more : Nat) (order : lo ≤ hi) (bound : hi ≤ 0xbf) (value : Nat) :
    ∃ c part, Partial.Completes c ⟨more, lo, hi, value⟩ part := by
  have next : (UInt8.ofNat lo).toNat = lo := Nat.mod_eq_of_lt (by omega)
  induction more generalizing lo hi value with
  | zero => exact ⟨_, _, completes_zero.mpr ⟨.ofNat lo, rfl, by omega, rfl⟩⟩
  | succ more ih =>
    obtain ⟨c, part, completes⟩ := ih (show 0x80 ≤ 0xbf by decide) (Nat.le_refl _)
      (value * 64 + (UInt8.ofNat lo).toNat % 64) (by decide)
    exact ⟨c, _, completes_succ.mpr ⟨.ofNat lo, part, rfl, by omega, completes⟩⟩

theorem decodeFrom_of_completes (completes : p.Completes c part) (rest : List UInt8) :
    decodeFrom (some p) (part ++ rest) = c :: decodeFrom none rest := by
  induction part generalizing p with
  | nil => contradiction
  | cons b tail ih =>
    obtain ⟨more, lo, hi, value⟩ := p
    cases more with
    | zero =>
      obtain ⟨_, same, bounds, rfl⟩ := completes_zero.mp completes
      cases same
      simp only [List.cons_append, List.nil_append, decodeFrom, feed, if_pos bounds]
    | succ more =>
      obtain ⟨_, _, same, bounds, completes⟩ := completes_succ.mp completes
      cases same
      simp only [List.cons_append, decodeFrom, feed, if_pos bounds, List.nil_append]
      exact ih completes

theorem exists_encodeChar (c : Char) : ∃ b rest, encodeChar c = b :: rest :=
  List.exists_cons_of_ne_nil (encodeChar_eq c ▸ String.utf8EncodeChar_ne_nil)

theorem decodeLossy_encodeChar (c : Char) (rest : List UInt8) :
    decodeLossy (encodeChar c ++ rest) = c :: decodeLossy rest := by
  obtain ⟨b, tail, written⟩ := exists_encodeChar c
  rw [written]
  rcases completes_of_encodeChar written with ⟨few, rfl, rfl⟩ | ⟨p, begun, completes⟩
  · simp only [decodeLossy, List.cons_append, decodeFrom, feed, lead_one few, List.nil_append]
  · simp only [decodeLossy, List.cons_append, decodeFrom, feed, begun, List.nil_append]
    exact decodeFrom_of_completes completes rest

theorem decodeLossy_encode (text : List Char) : decodeLossy (encode text) = text := by
  induction text with
  | nil => rfl
  | cons c rest ih => rw [encode, List.flatMap_cons, decodeLossy_encodeChar, ← encode, ih]

/-- Bytes at which no character begins, up to where none could go on: a single byte, or more of them if they begin a character. -/
structure Broken (part rest : List UInt8) : Prop where
  nonempty : part ≠ []
  stuck : ∀ c, ¬ encodeChar c <+: part ++ rest
  begins : part.length = 1 ∨ ∃ c, part <+: encodeChar c
  longest : ∀ next, next ≠ [] → next <+: rest → ∀ c, ¬ part ++ next <+: encodeChar c

/-- A character that has begun is completed, or is given up where it cannot go on. -/
theorem decodeFrom_cases (opened : p.Open) (bytes : List UInt8) :
    (∃ c part rest, bytes = part ++ rest ∧ p.Completes c part) ∨
    ∃ part rest, bytes = part ++ rest ∧ decodeFrom (some p) bytes = replacement :: decodeFrom none rest ∧
      (∃ c more, more ≠ [] ∧ p.Completes c (part ++ more)) ∧
      ∀ next, next ≠ [] → next <+: rest → ∀ c more, ¬ p.Completes c (part ++ next ++ more) := by
  obtain ⟨more, lo, hi, value⟩ := p
  obtain ⟨order, bound⟩ := opened
  dsimp only at order bound
  have completable := exists_completes more order bound value
  induction bytes generalizing more lo hi value with
  | nil =>
    obtain ⟨c, tail, completes⟩ := completable
    refine .inr ⟨[], [], rfl, rfl, ⟨c, tail, ?_, completes⟩, fun next some ends => ?_⟩
    · rintro rfl
      contradiction
    · exact absurd (List.prefix_nil.mp ends) some
  | cons b bytes ih =>
    by_cases goes : lo ≤ b.toNat ∧ b.toNat ≤ hi
    · cases more with
      | zero => exact .inl ⟨_, [b], bytes, rfl, completes_zero.mpr ⟨b, rfl, goes, rfl⟩⟩
      | succ more =>
        have next := exists_completes more (show 0x80 ≤ 0xbf by decide) (Nat.le_refl _) (value * 64 + b.toNat % 64)
        rcases ih more _ _ _ (by decide) (by decide) next with
          ⟨c, part, rest, rfl, completes⟩ | ⟨part, rest, rfl, decoded, ⟨c, tail, some, completes⟩, ends⟩
        · exact .inl ⟨c, b :: part, rest, rfl, completes_succ.mpr ⟨b, part, rfl, goes, completes⟩⟩
        · refine .inr ⟨b :: part, rest, rfl, ?_, ⟨c, tail, some, completes_succ.mpr ⟨b, _, rfl, goes, completes⟩⟩, ?_⟩
          · simp only [decodeFrom, feed, if_pos goes, List.nil_append]
            exact decoded
          · intro next some here c tail completes
            obtain ⟨_, _, same, _, completes⟩ := completes_succ.mp completes
            cases same
            exact ends next some here c tail completes
    · obtain ⟨c, tail, completes⟩ := completable
      refine .inr ⟨[], b :: bytes, rfl, ?_, ⟨c, tail, ?_, completes⟩, ?_⟩
      · simp only [decodeFrom, feed, if_neg goes, List.cons_append]
      · rintro rfl
        contradiction
      · rintro (_ | ⟨first, next⟩) some here c tail completes
        · contradiction
        · obtain ⟨rfl, _⟩ := List.cons_prefix_cons.mp here
          exact goes completes.1

theorem broken_of_lead_none (none : 0x80 ≤ b.toNat ∧ b.toNat < 0xc2 ∨ 0xf5 ≤ b.toNat) (rest : List UInt8) :
    Broken [b] rest := by
  have not_begun (c : Char) (tail : List UInt8) : encodeChar c ≠ b :: tail := by
    intro written
    rcases completes_of_encodeChar written with ⟨few, _⟩ | ⟨p, begun, _⟩
    · omega
    · cases begun.symm.trans (lead_none none)
  refine ⟨List.cons_ne_nil _ _, fun c here => ?_, .inl rfl, fun next _ _ c here => ?_⟩
  · obtain ⟨first, tail, written⟩ := exists_encodeChar c
    rw [written] at here
    obtain ⟨rfl, _⟩ := List.cons_prefix_cons.mp here
    exact not_begun c tail written
  · obtain ⟨more, written⟩ := here
    exact not_begun c _ written.symm

theorem broken_of_begun (begun : lead b = ([], some p)) (goes : more ≠ [] ∧ p.Completes c (part ++ more))
    (ends : ∀ next, next ≠ [] → next <+: rest → ∀ c more, ¬ p.Completes c (part ++ next ++ more)) :
    Broken (b :: part) rest := by
  have continues {d : Char} {tail : List UInt8} (written : encodeChar d = b :: tail) : p.Completes d tail := by
    rcases completes_of_encodeChar written with ⟨few, _⟩ | ⟨_, same, completes⟩
    · cases begun.symm.trans (lead_one few)
    · cases begun.symm.trans same
      exact completes
  refine ⟨List.cons_ne_nil _ _, fun d here => ?_, .inr ⟨c, more, ?_⟩, fun next some here d written => ?_⟩
  · -- All characters that begin here are longer than the part.
    obtain ⟨first, tail, written⟩ := exists_encodeChar d
    rw [written, List.cons_append] at here
    obtain ⟨rfl, inside⟩ := List.cons_prefix_cons.mp here
    have completes := continues written
    have length := completes.length.trans goes.2.length.symm
    have longer : part.length < tail.length := by
      have := List.length_pos_iff.mpr goes.1
      rw [length, List.length_append]
      omega
    obtain ⟨next, rfl⟩ := List.prefix_of_prefix_length_le (List.prefix_append part rest) inside (Nat.le_of_lt longer)
    rw [List.length_append] at longer
    refine ends next ?_ ((List.prefix_append_right_inj part).mp inside) d [] (by rwa [List.append_nil])
    rintro rfl
    simp at longer
  · exact (encodeChar_of_completes begun goes.2).symm
  · obtain ⟨tail, written⟩ := written
    exact ends next some here d tail (continues written.symm)

/-- What bytes begin with decides how decoding goes on: a character, or a part that is given up. -/
theorem decodeLossy_cases (bytes : List UInt8) :
    bytes = [] ∨ (∃ c rest, bytes = encodeChar c ++ rest) ∨
      ∃ part rest, bytes = part ++ rest ∧ Broken part rest ∧ decodeLossy bytes = replacement :: decodeLossy rest := by
  cases bytes with
  | nil => exact .inl rfl
  | cons b rest =>
    right
    have begins {p : Partial} (begun : lead b = ([], some p)) :
        (∃ c tail, b :: rest = encodeChar c ++ tail) ∨
          ∃ part tail, b :: rest = part ++ tail ∧ Broken part tail ∧
            decodeLossy (b :: rest) = replacement :: decodeLossy tail := by
      rcases decodeFrom_cases (open_of_lead begun) rest with
        ⟨c, part, tail, rfl, completes⟩ | ⟨part, tail, rfl, decoded, ⟨c, more, goes⟩, ends⟩
      · exact .inl ⟨c, tail, by rw [encodeChar_of_completes begun completes, List.cons_append]⟩
      · refine .inr ⟨b :: part, tail, rfl, broken_of_begun begun goes ends, ?_⟩
        simp only [decodeLossy, decodeFrom, feed, begun, List.nil_append]
        exact decoded
    rcases byte_cases b with one | none | ⟨low, high⟩ | ⟨low, high⟩ | ⟨low, high⟩
    · have written : encodeChar (Char.ofNat b.toNat) = [b] := by
        have value := toNat_ofNat (n := b.toNat) (by omega)
        rw [encodeChar_one (by omega), value, UInt8.ofNat_toNat]
      exact .inl ⟨_, rest, by rw [written, List.singleton_append]⟩
    · refine .inr ⟨[b], rest, rfl, broken_of_lead_none none rest, ?_⟩
      simp only [decodeLossy, decodeFrom, feed, lead_none none, List.singleton_append]
    · exact begins (lead_two low high)
    · exact begins (lead_three low high)
    · exact begins (lead_four low high)

/-- What bytes are read as: the characters that are written there, and one replacement for each part that is given up. -/
inductive Reads : List UInt8 → List Char → Prop
  | nil : Reads [] []
  | char (c : Char) {rest : List UInt8} {text : List Char} (reads : Reads rest text) :
      Reads (encodeChar c ++ rest) (c :: text)
  | broken {part rest : List UInt8} {text : List Char} (given : Broken part rest) (reads : Reads rest text) :
      Reads (part ++ rest) (replacement :: text)

theorem reads_decodeLossy (bytes : List UInt8) : Reads bytes (decodeLossy bytes) := by
  induction length : bytes.length using Nat.strongRecOn generalizing bytes with
  | ind n ih =>
    rcases decodeLossy_cases bytes with rfl | ⟨c, rest, rfl⟩ | ⟨part, rest, rfl, given, decoded⟩
    · exact .nil
    · obtain ⟨b, tail, written⟩ := exists_encodeChar c
      have shorter : rest.length < n := by
        rw [← length, written, List.length_append, List.length_cons]
        omega
      rw [decodeLossy_encodeChar]
      exact .char c (ih rest.length shorter rest rfl)
    · have shorter : rest.length < n := by
        have := List.length_pos_iff.mpr given.nonempty
        rw [← length, List.length_append]
        omega
      rw [decoded]
      exact .broken given (ih rest.length shorter rest rfl)

/-- What is given up at a place is determined by the bytes there. -/
theorem Broken.eq_of_append {other tail : List UInt8} (given : Broken part rest) (given' : Broken other tail)
    (same : part ++ rest = other ++ tail) : part = other := by
  have not_longer {part rest other tail : List UInt8} (given : Broken part rest) (given' : Broken other tail)
      (same : part ++ rest = other ++ tail) : other.length ≤ part.length := by
    refine Nat.le_of_not_lt fun longer => ?_
    obtain ⟨next, rfl⟩ := List.prefix_of_prefix_length_le (same ▸ List.prefix_append part rest)
      (List.prefix_append other tail) (Nat.le_of_lt longer)
    have some : next ≠ [] := by
      rintro rfl
      simp at longer
    rw [List.append_assoc] at same
    rcases given'.begins with single | ⟨c, begins⟩
    · have := List.length_pos_iff.mpr given.nonempty
      omega
    · exact given.longest next some (List.append_cancel_left same ▸ List.prefix_append next tail) c begins
  have length := Nat.le_antisymm (not_longer given' given same.symm) (not_longer given given' same)
  exact (List.append_inj same length).1

/-- Decoding reads exactly that. -/
theorem reads_iff {text : List Char} : Reads bytes text ↔ text = decodeLossy bytes := by
  constructor
  · intro reads
    induction reads with
    | nil => rfl
    | char c _ ih => rw [decodeLossy_encodeChar, ih]
    | @broken part bytes text given _ ih =>
      rcases decodeLossy_cases (part ++ bytes) with empty | ⟨c, rest, here⟩ | ⟨other, rest, same, given', decoded⟩
      · exact absurd (List.append_eq_nil_iff.mp empty).1 given.nonempty
      · exact absurd (here ▸ List.prefix_append _ _) (given.stuck c)
      · obtain rfl := given.eq_of_append given' same
        rw [decoded, ih, List.append_cancel_left same]
  · rintro rfl
    exact reads_decodeLossy bytes

end WasmBinding.Utf8
