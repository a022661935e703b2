import Mathlib.Tactic.SplitIfs
import ScriptHost.Base64
import ScriptHost.Proofs.Text.Utf8

set_option autoImplicit false

namespace ScriptHost.Base64

theorem value?_symbol {n : Nat} (small : n < 64) : value? (symbol n) = some n := by
  revert n
  decide

theorem symbol_ne_pad {n : Nat} (small : n < 64) : symbol n ≠ pad := by
  revert n
  decide

theorem symbol_lt {n : Nat} (small : n < 64) : symbol n < 128 := by
  revert n
  decide

theorem valueAt_symbol {n : Nat} (small : n < 64) (offset : Nat) :
    valueAt offset (symbol n) = .ok n := by
  rw [valueAt, value?_symbol small]

theorem lastGroup_symbols {start : Nat} {before values : List Nat} (small : ∀ n ∈ values, n < 64)
    (rest : List UInt8) :
    lastGroup start before 0 (values.map symbol ++ rest) =
      lastGroup start (before ++ values) 0 rest := by
  induction values generalizing before with
  | nil => simp
  | cons n values ih =>
      obtain ⟨smallFirst, smallRest⟩ := List.forall_mem_cons.mp small
      rw [List.map_cons, List.cons_append, lastGroup, if_neg (symbol_ne_pad smallFirst),
        if_neg (Nat.lt_irrefl 0), valueAt_symbol smallFirst]
      simp only
      rw [ih smallRest, List.append_assoc, List.singleton_append]

theorem lastGroup_pads {start : Nat} {values : List Nat} (enough : 2 ≤ values.length)
    (before count : Nat) :
    lastGroup start values before (List.replicate count pad) = .ok (values, before + count) := by
  induction count generalizing before with
  | zero => rfl
  | succ count ih =>
      rw [List.replicate_succ, lastGroup, if_pos rfl, if_neg (by omega), ih,
        Nat.add_assoc, Nat.add_comm 1]

/-- Symbols, with padding behind them, are the last group. -/
theorem decodeLast_symbols (start : Nat) (values : List Nat) {padding : Nat}
    (small : ∀ n ∈ values, n < 64) (enough : 2 ≤ values.length)
    (full : values.length + padding = 4) :
    decodeLast start (values.map symbol ++ List.replicate padding pad) =
      lastBytes start (values.map symbol ++ List.replicate padding pad) values := by
  rw [decodeLast, lastGroup_symbols small, List.nil_append, lastGroup_pads enough, Nat.zero_add]
  simp only
  rw [if_neg (by omega), if_neg (by omega)]

section Group

variable (a b c : UInt8) {n : Nat}

/-- The bytes of a full group are those it was written for. -/
theorem fullGroup_bytes (number : n = (a.toNat * 256 + b.toNat) * 256 + c.toNat) :
    UInt8.ofNat (n / 262144 * 4 + n / 4096 % 64 / 16) = a ∧
      UInt8.ofNat (n / 4096 % 64 % 16 * 16 + n / 64 % 64 / 4) = b ∧
      UInt8.ofNat (n / 64 % 64 % 4 * 64 + n % 64) = c := by
  have smallB := b.toNat_lt
  have smallC := c.toNat_lt
  have first : n / 262144 * 4 + n / 4096 % 64 / 16 = a.toNat := by omega
  have second : n / 4096 % 64 % 16 * 16 + n / 64 % 64 / 4 = b.toNat := by omega
  have third : n / 64 % 64 % 4 * 64 + n % 64 = c.toNat := by omega
  rw [first, second, third]
  exact ⟨UInt8.ofNat_toNat, UInt8.ofNat_toNat, UInt8.ofNat_toNat⟩

theorem decodeFrom_one (start : Nat) : decodeFrom start (encode [a]) = .ok [a] := by
  have smallA := a.toNat_lt
  obtain ⟨n, number⟩ : ∃ n, n = a.toNat * 16 := ⟨_, rfl⟩
  have last := decodeLast_symbols start [n / 64, n % 64] (by simp; omega)
    (Nat.le_refl 2) (Nat.add_comm 2 2)
  have unused : n % 64 % 16 = 0 := by omega
  have byte : n / 64 * 4 + n % 64 / 16 = a.toNat := by omega
  rw [lastBytes, if_pos unused, byte, UInt8.ofNat_toNat] at last
  rw [encode, ← number]
  exact last

theorem decodeFrom_two (start : Nat) : decodeFrom start (encode [a, b]) = .ok [a, b] := by
  have smallA := a.toNat_lt
  have smallB := b.toNat_lt
  obtain ⟨n, number⟩ : ∃ n, n = (a.toNat * 256 + b.toNat) * 4 := ⟨_, rfl⟩
  have last := decodeLast_symbols start [n / 4096, n / 64 % 64, n % 64] (by simp; omega)
    (Nat.le_succ 2) (Nat.add_comm 3 1)
  have unused : n % 64 % 4 = 0 := by omega
  have first : n / 4096 * 4 + n / 64 % 64 / 16 = a.toNat := by omega
  have second : n / 64 % 64 % 16 * 16 + n % 64 / 4 = b.toNat := by omega
  rw [lastBytes, if_pos unused, first, second, UInt8.ofNat_toNat, UInt8.ofNat_toNat] at last
  rw [encode, ← number]
  exact last

end Group

theorem encode_ne_nil (byte : UInt8) (bytes : List UInt8) : encode (byte :: bytes) ≠ [] := by
  rcases bytes with _ | ⟨_, _ | _⟩ <;> simp [encode]

theorem decodeFrom_encode (start : Nat) (bytes : List UInt8) :
    decodeFrom start (encode bytes) = .ok bytes := by
  induction bytes using encode.induct generalizing start with
  | case1 => rfl
  | case2 a => exact decodeFrom_one a start
  | case3 a b => exact decodeFrom_two a b start
  | case4 a b c rest ih =>
      have smallA := a.toNat_lt
      have smallB := b.toNat_lt
      have smallC := c.toNat_lt
      obtain ⟨n, number⟩ : ∃ n, n = (a.toNat * 256 + b.toNat) * 256 + c.toNat := ⟨_, rfl⟩
      obtain ⟨first, second, third⟩ := fullGroup_bytes a b c number
      have small : n / 262144 < 64 ∧ n / 4096 % 64 < 64 ∧ n / 64 % 64 < 64 ∧ n % 64 < 64 := by
        omega
      rw [encode, ← number]
      cases behind : encode rest with
      | nil =>
          -- the group is the last one
          have last := decodeLast_symbols start
            [n / 262144, n / 4096 % 64, n / 64 % 64, n % 64] (by simp; omega) (by simp)
            (Nat.add_zero 4)
          rw [lastBytes, first, second, third] at last
          cases rest with
          | nil => exact last
          | cons byte rest => exact absurd behind (encode_ne_nil byte rest)
      | cons symbol tail =>
          simp only [decodeFrom, valueAt_symbol small.1, valueAt_symbol small.2.1,
            valueAt_symbol small.2.2.1, valueAt_symbol small.2.2.2, ← behind, ih, bind, Except.bind,
            pure, Except.pure, first, second, third]

theorem length_encode_mod (bytes : List UInt8) : (encode bytes).length % 4 = 0 := by
  induction bytes using encode.induct with
  | case1 => rfl
  | case2 a => simp [encode]
  | case3 a b => simp [encode]
  | case4 a b c rest ih =>
      rw [encode]
      simp only [List.length_cons]
      omega

theorem decode_encode (bytes : List UInt8) : decode (encode bytes) = .ok bytes := by
  have groups := length_encode_mod bytes
  have read := decodeFrom_encode 0 bytes
  rw [decode]
  split
  · rw [if_neg (by omega), read]
  · rename_i none
    rw [List.getLast?_eq_none_iff] at none
    rw [none] at read
    exact read

theorem symbol_of_value? {byte : UInt8} {n : Nat} (found : value? byte = some n) :
    n < 64 ∧ symbol n = byte := by
  have back (code : Nat) (same : code = byte.toNat) : UInt8.ofNat code = byte := by
    rw [same, UInt8.ofNat_toNat]
  simp only [value?] at found
  repeat' split at found
  all_goals cases found
  all_goals
    refine ⟨by omega, back _ ?_⟩
    split_ifs <;> omega

theorem valueAt_eq_ok {offset : Nat} {byte : UInt8} {n : Nat} (read : valueAt offset byte = .ok n) :
    n < 64 ∧ symbol n = byte := by
  rw [valueAt] at read
  split at read
  · rename_i found
    cases read
    exact symbol_of_value? found
  · cases read

/-- A last group consists of symbols with padding behind them. -/
theorem of_lastGroup {start padding total : Nat} {values results : List Nat} {group : List UInt8}
    (read : lastGroup start values padding group = .ok (results, total)) :
    ∃ more count, results = values ++ more ∧ total = padding + count ∧ (∀ n ∈ more, n < 64) ∧
      group = more.map symbol ++ List.replicate count pad ∧ (0 < padding → more = []) := by
  induction group generalizing values padding with
  | nil =>
      cases read
      exact ⟨[], 0, by simp⟩
  | cons byte rest ih =>
      rw [lastGroup] at read
      split at read
      · rename_i isPad
        split at read
        · cases read
        · obtain ⟨more, count, rfl, rfl, -, rfl, none⟩ := ih read
          obtain rfl := none (Nat.succ_pos padding)
          refine ⟨[], count + 1, rfl, by omega, List.forall_mem_nil _, ?_, fun _ => rfl⟩
          rw [isPad, List.replicate_succ]
          rfl
      split at read
      · cases read
      · rename_i noPadding
        split at read
        · rename_i n value
          obtain ⟨small, same⟩ := valueAt_eq_ok value
          obtain ⟨more, count, rfl, rfl, smallMore, rfl, -⟩ := ih read
          refine ⟨n :: more, count, by simp, rfl, ?_, ?_, fun some => absurd some noPadding⟩
          · exact List.forall_mem_cons.mpr ⟨small, smallMore⟩
          · rw [List.map_cons, List.cons_append, same]
        · cases read

theorem toNat_byte {n : Nat} (small : n < 256) : (UInt8.ofNat n).toNat = n :=
  UInt8.toNat_ofNat_of_lt' small

/-- Three bytes made of four values are written as the symbols of the values. -/
theorem encode_full {a b c d : Nat} (smallA : a < 64) (smallB : b < 64) (smallC : c < 64)
    (smallD : d < 64) (rest : List UInt8) :
    encode (UInt8.ofNat (a * 4 + b / 16) :: UInt8.ofNat (b % 16 * 16 + c / 4) ::
        UInt8.ofNat (c % 4 * 64 + d) :: rest) =
      symbol a :: symbol b :: symbol c :: symbol d :: encode rest := by
  obtain ⟨n, number⟩ : ∃ n, n = ((a * 4 + b / 16) * 256 + (b % 16 * 16 + c / 4)) * 256 +
    (c % 4 * 64 + d) := ⟨_, rfl⟩
  have valueA : n / 262144 = a := by omega
  have valueB : n / 4096 % 64 = b := by omega
  have valueC : n / 64 % 64 = c := by omega
  have valueD : n % 64 = d := by omega
  rw [encode, toNat_byte (by omega), toNat_byte (by omega), toNat_byte (by omega)]
  simp only [← number, valueA, valueB, valueC, valueD]

/-- As the bits that the last symbol does not use are zero, the bytes of a last group are written as
the group. -/
theorem encode_of_lastBytes {start padding : Nat} {group bytes : List UInt8} {values : List Nat}
    (small : ∀ n ∈ values, n < 64) (enough : 2 ≤ values.length)
    (full : values.length + padding = 4) (read : lastBytes start group values = .ok bytes) :
    encode bytes = values.map symbol ++ List.replicate padding pad := by
  rcases values with _ | ⟨a, _ | ⟨b, _ | ⟨c, _ | ⟨d, _ | ⟨e, more⟩⟩⟩⟩⟩
  · simp at enough
  · simp at enough
  · obtain rfl : padding = 2 := Nat.add_left_cancel (n := 2) full
    simp only [List.forall_mem_cons] at small
    rw [lastBytes] at read
    split at read
    · rename_i unused
      cases read
      obtain ⟨n, number⟩ : ∃ n, n = (a * 4 + b / 16) * 16 := ⟨_, rfl⟩
      have valueA : n / 64 = a := by omega
      have valueB : n % 64 = b := by omega
      rw [encode, toNat_byte (by omega)]
      simp only [← number, valueA, valueB]
      rfl
    · cases read
  · obtain rfl : padding = 1 := Nat.add_left_cancel (n := 3) full
    simp only [List.forall_mem_cons] at small
    rw [lastBytes] at read
    split at read
    · rename_i unused
      cases read
      obtain ⟨n, number⟩ : ∃ n, n = ((a * 4 + b / 16) * 256 + (b % 16 * 16 + c / 4)) * 4 := ⟨_, rfl⟩
      have valueA : n / 4096 = a := by omega
      have valueB : n / 64 % 64 = b := by omega
      have valueC : n % 64 = c := by omega
      rw [encode, toNat_byte (by omega), toNat_byte (by omega)]
      simp only [← number, valueA, valueB, valueC]
      rfl
    · cases read
  · obtain rfl : padding = 0 := by simpa using full
    simp only [List.forall_mem_cons] at small
    cases read
    exact encode_full small.1 small.2.1 small.2.2.1 small.2.2.2.1 []
  · simp at full
    omega

theorem encode_of_decodeLast {start : Nat} {group bytes : List UInt8} (few : group.length ≤ 4)
    (read : decodeLast start group = .ok bytes) : encode bytes = group := by
  rw [decodeLast] at read
  cases found : lastGroup start [] 0 group with
  | error fault => simp [found] at read
  | ok result =>
      obtain ⟨values, padding⟩ := result
      simp only [found] at read
      obtain ⟨more, count, same, total, small, rfl, -⟩ := of_lastGroup found
      obtain rfl : values = more := same
      obtain rfl : padding = count := total.trans (Nat.zero_add count)
      split at read
      · cases read
      rename_i enough
      split at read
      · cases read
      rename_i whole
      rw [List.length_append, List.length_map, List.length_replicate] at few
      exact encode_of_lastBytes small (by omega) (by omega) read

theorem bind_eq_ok {α β : Type} {first : Except Fault α} {next : α → Except Fault β} {result : β} :
    (first >>= next) = .ok result ↔ ∃ value, first = .ok value ∧ next value = .ok result := by
  cases first <;> simp [bind, Except.bind]

theorem encode_of_decodeFrom {start : Nat} {text bytes : List UInt8}
    (read : decodeFrom start text = .ok bytes) : encode bytes = text := by
  induction start, text using decodeFrom.induct generalizing bytes with
  | case1 start a b c d e rest ih =>
      simp only [decodeFrom, bind_eq_ok] at read
      obtain ⟨_, readA, _, readB, _, readC, _, readD, others, readRest, ⟨⟩⟩ := read
      obtain ⟨smallA, rfl⟩ := valueAt_eq_ok readA
      obtain ⟨smallB, rfl⟩ := valueAt_eq_ok readB
      obtain ⟨smallC, rfl⟩ := valueAt_eq_ok readC
      obtain ⟨smallD, rfl⟩ := valueAt_eq_ok readD
      rw [encode_full smallA smallB smallC smallD, ih readRest]
  | case2 =>
      cases read
      rfl
  | case3 start group short some =>
      rw [decodeFrom.eq_3 start group short some] at read
      apply encode_of_decodeLast ?_ read
      rcases group with _ | ⟨a, _ | ⟨b, _ | ⟨c, _ | ⟨d, _ | ⟨e, rest⟩⟩⟩⟩⟩
      case cons.cons.cons.cons.cons => exact (short a b c d e rest rfl).elim
      all_goals simp

/-- A text that is read is the written form of the bytes read from it. -/
theorem encode_of_decode {text bytes : List UInt8} (read : decode text = .ok bytes) :
    encode bytes = text := by
  rw [decode] at read
  split at read
  · split at read
    · cases read
    · exact encode_of_decodeFrom read
  · rename_i none
    cases read
    exact (List.getLast?_eq_none_iff.mp none).symm

theorem encode_ascii (bytes : List UInt8) : ∀ byte ∈ encode bytes, byte < 128 := by
  have padSmall : pad < 128 := by decide
  induction bytes using encode.induct with
  | case1 => simp [encode]
  | case2 a =>
      have smallA := a.toNat_lt
      rw [encode]
      simp only [List.forall_mem_cons]
      exact ⟨symbol_lt (by omega), symbol_lt (by omega), padSmall, padSmall, List.forall_mem_nil _⟩
  | case3 a b =>
      have smallA := a.toNat_lt
      have smallB := b.toNat_lt
      rw [encode]
      simp only [List.forall_mem_cons]
      exact ⟨symbol_lt (by omega), symbol_lt (by omega), symbol_lt (by omega), padSmall,
        List.forall_mem_nil _⟩
  | case4 a b c rest ih =>
      have smallA := a.toNat_lt
      have smallB := b.toNat_lt
      have smallC := c.toNat_lt
      rw [encode]
      simp only [List.forall_mem_cons]
      exact ⟨symbol_lt (by omega), symbol_lt (by omega), symbol_lt (by omega),
        symbol_lt (by omega), ih⟩

end ScriptHost.Base64
