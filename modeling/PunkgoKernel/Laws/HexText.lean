import PunkgoKernel.State.EventLog

/-!
# Hashes as text

A hash is written as two lower-case digits a byte and reads back as it was
(`hexToHash_bytesToHex`). The reader takes the text two bytes at a time and
leaves each piece to the integer parser, which also takes a plus sign and one
digit (`Signed`), and the slice of a piece panics where it would cut a character
(`Straddled`). Every other text is read exactly (`hexToHash_exact_iff`).
-/

namespace PunkgoKernel

/-! ## Digits -/

theorem hexValue_ascii : ∀ n < 128, (hexValue (Char.ofNat n)).all (fun d =>
    d < 16 && Json.hexDigit d = (Char.ofNat n).toLower && (Char.ofNat n).utf8Size = 1 &&
      Char.ofNat n ≠ '+') = true := by
  decide

theorem hexValue_lt_128 {c : Char} {d : Nat} (h : hexValue c = some d) : c.toNat < 128 := by
  unfold hexValue at h
  split at h
  · next hdigit =>
    have hle : c.toNat ≤ '9'.toNat := by
      simpa [Char.isDigit, UInt32.le_iff_toNat_le] using (Bool.and_eq_true_iff.mp hdigit).2
    exact lt_of_le_of_lt hle (by decide)
  · split at h
    · next hletter => exact lt_of_le_of_lt (UInt32.le_iff_toNat_le.mp hletter.2) (by decide)
    · split at h
      · next hletter => exact lt_of_le_of_lt (UInt32.le_iff_toNat_le.mp hletter.2) (by decide)
      · cases h

/-- A digit is one byte, and its value is written as the digit in lower case. -/
theorem hexValue_spec {c : Char} {d : Nat} (h : hexValue c = some d) :
    d < 16 ∧ Json.hexDigit d = c.toLower ∧ c.utf8Size = 1 ∧ c ≠ '+' := by
  have hall := hexValue_ascii c.toNat (hexValue_lt_128 h)
  rw [Char.ofNat_toNat, h] at hall
  simp only [Option.all_some, Bool.and_eq_true, decide_eq_true_eq] at hall
  obtain ⟨⟨⟨hlt, hdigit⟩, hsize⟩, hplus⟩ := hall
  exact ⟨hlt, hdigit, hsize, hplus⟩

/-! ## Pieces -/

/-- Pieces of two characters, each a digit or a plus sign, and a digit. -/
def numbers : List Char → Bool
  | [] => true
  | [_] => false
  | c :: d :: rest => (c = '+' || (hexValue c).isSome) && (hexValue d).isSome && numbers rest

/-- A slice of two bytes cuts a character where the text goes on so. -/
def cuts : List Char → Bool
  | [] => false
  | [c] => c.utf8Size ≠ 2
  | c :: d :: _ => c.utf8Size ≠ 2 && (c.utf8Size ≠ 1 || d.utf8Size ≠ 1)

/-- The text is read to its end, a plus sign in it. -/
def Signed (s : String) : Prop := numbers s.toList = true ∧ '+' ∈ s.toList

/-- The text is read up to a slice that cuts a character. -/
def Straddled (s : String) : Prop :=
  ∃ read rest, s.toList = read ++ rest ∧ numbers read = true ∧ cuts rest = true

theorem fromStrRadix16_isSome (c d : Char) :
    (fromStrRadix16 c d).isSome = ((c = '+' || (hexValue c).isSome) && (hexValue d).isSome) := by
  unfold fromStrRadix16
  by_cases hplus : c = '+'
  · simp [hplus]
  · cases hexValue c <;> simp [hplus]

/-- A piece that is read has two one-byte characters. -/
theorem fromStrRadix16_size {c d : Char} {b : UInt8} (h : fromStrRadix16 c d = some b) :
    c.utf8Size = 1 ∧ d.utf8Size = 1 := by
  have hsome : (fromStrRadix16 c d).isSome = true := by rw [h]; rfl
  rw [fromStrRadix16_isSome, Bool.and_eq_true, Bool.or_eq_true, decide_eq_true_eq] at hsome
  obtain ⟨hc, hd⟩ := hsome
  obtain ⟨y, hy⟩ := Option.isSome_iff_exists.mp hd
  refine ⟨?_, (hexValue_spec hy).2.2.1⟩
  rcases hc with rfl | hc
  · rfl
  · obtain ⟨x, hx⟩ := Option.isSome_iff_exists.mp hc
    exact (hexValue_spec hx).2.2.1

/-- A piece of two digits is written again as those, in lower case. -/
theorem hexPair_fromStrRadix16 {c d : Char} {b : UInt8} (h : fromStrRadix16 c d = some b)
    (hplus : c ≠ '+') : hexPair b = [c.toLower, d.toLower] := by
  unfold fromStrRadix16 at h
  rw [if_neg hplus] at h
  obtain ⟨hi, hhi, hrest⟩ := Option.bind_eq_some_iff.mp h
  obtain ⟨lo, hlo, rfl⟩ := Option.map_eq_some_iff.mp hrest
  obtain ⟨hhi16, hhiDigit, -⟩ := hexValue_spec hhi
  obtain ⟨hlo16, hloDigit, -⟩ := hexValue_spec hlo
  have hbyte : (UInt8.ofNat (16 * hi + lo)).toNat = 16 * hi + lo := by
    rw [UInt8.toNat_ofNat']
    omega
  unfold hexPair
  rw [hbyte, show (16 * hi + lo) / 16 = hi by omega, show (16 * hi + lo) % 16 = lo by omega,
    hhiDigit, hloDigit]

/-! ## The reader -/

theorem hexBytes_cons (hex : String) (c d : Char) (rest : List Char) :
    hexBytes hex (c :: d :: rest) =
      if c.utf8Size = 2 then some (.error (.invalidHex hex))
      else if c.utf8Size ≠ 1 ∨ d.utf8Size ≠ 1 then none
      else
        match fromStrRadix16 c d with
        | none => some (.error (.invalidHex hex))
        | some b => (hexBytes hex rest).map fun bytes => bytes.map (b :: ·) := rfl

/-- What a text that is read gives. -/
structure Read (cs : List Char) (bytes : List UInt8) : Prop where
  numbers : numbers cs = true
  size : String.utf8Len cs = 2 * bytes.length
  length : cs.length = 2 * bytes.length
  lower : '+' ∉ cs → bytes.flatMap hexPair = cs.map Char.toLower

theorem hexBytes_read {hex : String} {cs : List Char} {bytes : List UInt8}
    (h : hexBytes hex cs = some (.ok bytes)) : Read cs bytes := by
  induction cs using numbers.induct generalizing bytes with
  | case1 =>
    cases h
    exact ⟨rfl, rfl, rfl, fun _ => rfl⟩
  | case2 c =>
    unfold hexBytes at h
    split at h <;> cases h
  | case3 c d rest ih =>
    rw [hexBytes_cons] at h
    split at h
    · cases h
    split at h
    · cases h
    split at h
    · cases h
    next b hb =>
    obtain ⟨result, hrest, heq⟩ := Option.map_eq_some_iff.mp h
    cases result with
    | error e => cases heq
    | ok more =>
      cases heq
      have hmore := ih hrest
      obtain ⟨hc, hd⟩ := fromStrRadix16_size hb
      have hsome : (fromStrRadix16 c d).isSome = true := by rw [hb]; rfl
      rw [fromStrRadix16_isSome] at hsome
      refine ⟨?_, ?_, ?_, ?_⟩
      · show (_ && numbers rest) = true
        rw [hsome, hmore.numbers, Bool.and_true]
      · rw [String.utf8Len_cons, String.utf8Len_cons, hmore.size, hc, hd, List.length_cons]
        omega
      · rw [List.length_cons, List.length_cons, hmore.length, List.length_cons]
        omega
      · intro hplus
        have hhead : c ≠ '+' := fun heq => hplus (heq ▸ List.mem_cons_self)
        have htail : '+' ∉ rest := fun hmem =>
          hplus (List.mem_cons_of_mem _ (List.mem_cons_of_mem _ hmem))
        rw [List.flatMap_cons, hexPair_fromStrRadix16 hb hhead, hmore.lower htail]
        rfl

/-- Numbers are read. -/
theorem hexBytes_of_numbers (hex : String) {cs : List Char} (h : numbers cs = true) :
    ∃ bytes, hexBytes hex cs = some (.ok bytes) := by
  induction cs using numbers.induct with
  | case1 => exact ⟨[], rfl⟩
  | case2 c => cases h
  | case3 c d rest ih =>
    obtain ⟨hpiece, hrest⟩ := Bool.and_eq_true_iff.mp h
    obtain ⟨bytes, hbytes⟩ := ih hrest
    obtain ⟨b, hb⟩ := Option.isSome_iff_exists.mp ((fromStrRadix16_isSome c d).trans hpiece)
    obtain ⟨hc, hd⟩ := fromStrRadix16_size hb
    refine ⟨b :: bytes, ?_⟩
    rw [hexBytes_cons, if_neg (by omega), if_neg (by omega), hb, hbytes]
    rfl

/-- The reader panics exactly where it comes to a slice that cuts a
character. -/
theorem hexBytes_eq_none_iff (hex : String) (cs : List Char) :
    hexBytes hex cs = none ↔
      ∃ read rest, cs = read ++ rest ∧ numbers read = true ∧ cuts rest = true := by
  induction cs using numbers.induct with
  | case1 =>
    refine iff_of_false (fun h => by cases h) ?_
    rintro ⟨read, rest, heq, -, hcuts⟩
    obtain ⟨rfl, rfl⟩ := List.nil_eq_append_iff.mp heq
    cases hcuts
  | case2 c =>
    have hsplit : (∃ read rest, [c] = read ++ rest ∧ numbers read = true ∧ cuts rest = true) ↔
        c.utf8Size ≠ 2 := by
      constructor
      · rintro ⟨read, rest, heq, hread, hcuts⟩
        cases read with
        | nil =>
          obtain rfl : [c] = rest := heq
          exact of_decide_eq_true hcuts
        | cons x xs =>
          obtain ⟨rfl, hxs⟩ := List.cons.inj heq
          obtain ⟨rfl, rfl⟩ := List.nil_eq_append_iff.mp hxs
          cases hread
      · intro hsize
        exact ⟨[], [c], rfl, rfl, decide_eq_true hsize⟩
    rw [hsplit]
    unfold hexBytes
    split <;> simp_all
  | case3 c d rest ih =>
    -- the first piece is cut, is no number, or is read
    by_cases hcut : cuts (c :: d :: rest) = true
    · refine iff_of_true ?_ ⟨[], _, rfl, rfl, hcut⟩
      obtain ⟨htwo, hone⟩ := Bool.and_eq_true_iff.mp hcut
      rw [decide_eq_true_eq] at htwo
      rw [Bool.or_eq_true, decide_eq_true_eq, decide_eq_true_eq] at hone
      rw [hexBytes_cons, if_neg htwo, if_pos hone]
    have hpieces : (∃ read more, c :: d :: rest = read ++ more ∧ numbers read = true ∧
        cuts more = true) ↔ (fromStrRadix16 c d).isSome = true ∧
          ∃ read more, rest = read ++ more ∧ numbers read = true ∧ cuts more = true := by
      constructor
      · rintro ⟨read, more, heq, hread, hcuts⟩
        cases read with
        | nil =>
          obtain rfl : c :: d :: rest = more := heq
          exact absurd hcuts hcut
        | cons x read =>
          obtain ⟨rfl, htail⟩ := List.cons.inj heq
          cases read with
          | nil => cases hread
          | cons y read' =>
            obtain ⟨rfl, rfl⟩ := List.cons.inj htail
            obtain ⟨hpiece, hread'⟩ := Bool.and_eq_true_iff.mp hread
            exact ⟨(fromStrRadix16_isSome c d).trans hpiece, read', more, rfl, hread', hcuts⟩
      · rintro ⟨hpiece, read, more, rfl, hread, hcuts⟩
        refine ⟨c :: d :: read, more, rfl, ?_, hcuts⟩
        rw [fromStrRadix16_isSome] at hpiece
        exact Bool.and_eq_true_iff.mpr ⟨hpiece, hread⟩
    rw [hpieces, ← ih, hexBytes_cons]
    split
    · next htwo =>
      refine iff_of_false (fun h => by cases h) ?_
      rintro ⟨hsome, -⟩
      obtain ⟨b, hb⟩ := Option.isSome_iff_exists.mp hsome
      obtain ⟨hone, -⟩ := fromStrRadix16_size hb
      omega
    · next htwo =>
      have hsizes : ¬ (c.utf8Size ≠ 1 ∨ d.utf8Size ≠ 1) := by
        intro hone
        refine hcut (Bool.and_eq_true_iff.mpr ⟨decide_eq_true htwo, ?_⟩)
        rw [Bool.or_eq_true, decide_eq_true_eq, decide_eq_true_eq]
        exact hone
      rw [if_neg hsizes]
      cases fromStrRadix16 c d with
      | none => exact iff_of_false (fun h => by cases h) fun h => by cases h.1
      | some b => simp

/-! ## The codec -/

/-- Sixty-four hexadecimal digits, of either case. -/
def HexText (s : String) : Prop :=
  s.toList.length = 64 ∧ ∀ c ∈ s.toList, (hexValue c).isSome = true

/-- The text is read exactly: no panic, no more accepted than the digits of a
hash, and those as they are written. -/
structure CodecExact (s : String) : Prop where
  total : hexToHash s ≠ none
  accepts : (∃ h, hexToHash s = some (.ok h)) ↔ HexText s
  lower : ∀ h, hexToHash s = some (.ok h) →
    bytesToHex h.bytes = String.ofList (s.toList.map Char.toLower)

/-- Digits are numbers. -/
theorem numbers_of_digits {cs : List Char} {n : Nat} (hlength : cs.length = 2 * n)
    (hdigits : ∀ c ∈ cs, (hexValue c).isSome = true) :
    numbers cs = true ∧ String.utf8Len cs = 2 * n ∧ '+' ∉ cs := by
  have hspec : ∀ c ∈ cs, c.utf8Size = 1 ∧ c ≠ '+' := by
    intro c hc
    obtain ⟨d, hd⟩ := Option.isSome_iff_exists.mp (hdigits c hc)
    exact (hexValue_spec hd).2.2
  have hplus : '+' ∉ cs := fun hmem => (hspec '+' hmem).2 rfl
  have hnumbers : numbers cs = true ∧ String.utf8Len cs = 2 * n := by
    clear hplus
    induction n generalizing cs with
    | zero =>
      obtain rfl := List.length_eq_zero_iff.mp hlength
      exact ⟨rfl, rfl⟩
    | succ n ih =>
      match cs, hlength with
      | c :: d :: rest, hlength =>
        have hc := List.mem_cons_self (a := c) (l := d :: rest)
        have hd : d ∈ c :: d :: rest := List.mem_cons_of_mem _ List.mem_cons_self
        have hrest : ∀ x ∈ rest, x ∈ c :: d :: rest := fun x hx =>
          List.mem_cons_of_mem _ (List.mem_cons_of_mem _ hx)
        have hshort : rest.length = 2 * n := by
          rw [List.length_cons, List.length_cons] at hlength
          omega
        obtain ⟨hmore, hsize⟩ := ih hshort (fun x hx => hdigits x (hrest x hx))
          (fun x hx => hspec x (hrest x hx))
        refine ⟨?_, ?_⟩
        · show ((c = '+' || (hexValue c).isSome) && (hexValue d).isSome && numbers rest) = true
          rw [hdigits c hc, hdigits d hd, hmore, Bool.or_true]
          rfl
        · rw [String.utf8Len_cons, String.utf8Len_cons, hsize, (hspec c hc).1, (hspec d hd).1]
          omega
  exact ⟨hnumbers.1, hnumbers.2, hplus⟩

/-- Numbers without a plus sign are digits. -/
theorem digits_of_numbers {cs : List Char} (h : numbers cs = true) (hplus : '+' ∉ cs) :
    ∀ c ∈ cs, (hexValue c).isSome = true := by
  induction cs using numbers.induct with
  | case1 => exact fun c hc => by cases hc
  | case2 c => cases h
  | case3 c d rest ih =>
    obtain ⟨hpiece, hrest⟩ := Bool.and_eq_true_iff.mp h
    obtain ⟨hc, hd⟩ := Bool.and_eq_true_iff.mp hpiece
    have hhead : c ≠ '+' := fun heq => hplus (heq ▸ List.mem_cons_self)
    have htail : '+' ∉ rest := fun hmem =>
      hplus (List.mem_cons_of_mem _ (List.mem_cons_of_mem _ hmem))
    intro x hx
    rcases List.mem_cons.mp hx with rfl | hx
    · simpa [hhead] using hc
    rcases List.mem_cons.mp hx with rfl | hx
    · exact hd
    · exact ih hrest htail x hx

/-- What the decoder makes of a text of sixty-four bytes. -/
theorem hexToHash_of_size {s : String} (hsize : s.utf8ByteSize = 64) :
    (hexToHash s = none ↔ hexBytes s s.toList = none) ∧
      ∀ h : Hash, hexToHash s = some (.ok h) ↔ hexBytes s s.toList = some (.ok h.bytes) := by
  have hlength : ∀ bytes, hexBytes s s.toList = some (.ok bytes) → bytes.length = 32 := by
    intro bytes hbytes
    have hread := (hexBytes_read hbytes).size
    rw [← String.utf8ByteSize_ofList, String.ofList_toList, hsize] at hread
    omega
  unfold hexToHash
  rw [if_neg (by omega)]
  cases hbytes : hexBytes s s.toList with
  | none => simp
  | some result =>
    cases result with
    | error e => simp
    | ok bytes =>
      have h32 := hlength bytes hbytes
      simp only [h32, dif_pos]
      refine ⟨by simp, fun h => ?_⟩
      constructor
      · intro heq
        cases heq
        rfl
      · intro heq
        cases heq
        rfl

/-- The text of a hash reads back as the hash; and a text is read exactly unless
it is sixty-four bytes that are read through with a plus sign, or up to a slice
that cuts a character. -/
theorem hexToHash_exact_iff (h : Hash) (s : String) :
    hexToHash (bytesToHex h.bytes) = some (.ok h) ∧
      (CodecExact s ↔ ¬ (s.utf8ByteSize = 64 ∧ (Signed s ∨ Straddled s))) := by
  refine ⟨hexToHash_bytesToHex h, ⟨?_, fun hgood => ?_⟩⟩
  · rintro hexact ⟨hsize, hsigned | hstraddled⟩
    · obtain ⟨hnumbers, hplus⟩ := hsigned
      obtain ⟨bytes, hbytes⟩ := hexBytes_of_numbers s hnumbers
      have hlength : bytes.length = 32 := by
        have hread := (hexBytes_read hbytes).size
        rw [← String.utf8ByteSize_ofList, String.ofList_toList, hsize] at hread
        omega
      have hok := ((hexToHash_of_size hsize).2 ⟨bytes, hlength⟩).mpr hbytes
      have hdigit := (hexact.accepts.mp ⟨_, hok⟩).2 '+' hplus
      cases hdigit
    · exact hexact.total ((hexToHash_of_size hsize).1.mpr
        ((hexBytes_eq_none_iff s s.toList).mpr hstraddled))
  · by_cases hsize : s.utf8ByteSize = 64
    · have hnot : ¬ Signed s ∧ ¬ Straddled s := not_or.mp fun h => hgood ⟨hsize, h⟩
      obtain ⟨hnone, hok⟩ := hexToHash_of_size hsize
      -- what is read has no plus sign
      have hplain : ∀ h : Hash, hexToHash s = some (.ok h) →
          Read s.toList h.bytes ∧ '+' ∉ s.toList := by
        intro h heq
        have hread := hexBytes_read ((hok h).mp heq)
        exact ⟨hread, fun hplus => hnot.1 ⟨hread.numbers, hplus⟩⟩
      refine ⟨?_, ⟨?_, ?_⟩, ?_⟩
      · exact fun h => hnot.2 ((hexBytes_eq_none_iff s s.toList).mp (hnone.mp h))
      · rintro ⟨h, heq⟩
        obtain ⟨hread, hplus⟩ := hplain h heq
        refine ⟨?_, digits_of_numbers hread.numbers hplus⟩
        rw [hread.length, h.size]
      · rintro ⟨hlength, hdigits⟩
        obtain ⟨hnumbers, -, -⟩ := numbers_of_digits (n := 32) hlength hdigits
        obtain ⟨bytes, hbytes⟩ := hexBytes_of_numbers s hnumbers
        have hread := hexBytes_read hbytes
        exact ⟨⟨bytes, by have := hread.length; omega⟩, (hok _).mpr hbytes⟩
      · intro h heq
        obtain ⟨hread, hplus⟩ := hplain h heq
        unfold bytesToHex
        rw [hread.lower hplus]
    · have herror : hexToHash s = some (.error (.invalidHex s)) := by
        unfold hexToHash
        rw [if_pos hsize]
      refine ⟨by rw [herror]; nofun, ⟨?_, ?_⟩, ?_⟩
      · rintro ⟨h, heq⟩
        rw [herror] at heq
        cases heq
      · rintro ⟨hlength, hdigits⟩
        obtain ⟨-, hbytes, -⟩ := numbers_of_digits (n := 32) hlength hdigits
        rw [← String.utf8ByteSize_ofList, String.ofList_toList] at hbytes
        exact absurd hbytes hsize
      · intro h heq
        rw [herror] at heq
        cases heq

/-- A plus sign where a digit belongs. -/
def plusText : String := "+" ++ String.ofList (List.replicate 63 '0')

/-- A text that is no hash is read as one, since the number parser takes a plus sign
before a digit. -/
theorem plusText_not_exact : ¬ ∀ s : String, CodecExact s := by
  intro hclaim
  have hread : ∃ h, hexToHash plusText = some (.ok h) := by
    have hok : (hexToHash plusText).map (fun r => r.toOption.isSome) = some true := by
      decide
    obtain ⟨result, hresult, hsome⟩ := Option.map_eq_some_iff.mp hok
    cases result with
    | error e => cases hsome
    | ok h => exact ⟨h, hresult⟩
  have hdigit := ((hclaim plusText).accepts.mp hread).2 '+' (by decide)
  cases hdigit

end PunkgoKernel
