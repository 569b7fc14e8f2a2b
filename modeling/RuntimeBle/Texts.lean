import RuntimeBle.Lib.Bounded
import RuntimeBle.Link.Events

/-!
# Texts

The texts that are written into a `heapless::String` and handed to C: the
message of a panic, the line of a disconnect, and the line about the memory
the controller needs. Each is to end with a NUL.

What `write!` is given comes piece by piece: a literal, a string or a number
is one piece, and the padding of `{:02x}` is one of its own.
-/

namespace RuntimeBle

open RuntimeBle.Lib RuntimeBle.Link

/-! ## Pieces -/

/-- `heapless::String`: what does not fit is left out. -/
abbrev HeaplessString (n : Nat) := Text UInt8 n

/-- The bytes of a literal. -/
def ascii (s : String) : List UInt8 := s.toList.map Char.toUInt8

/-- `{}` of an unsigned integer. -/
def decimal (n : Nat) : List UInt8 := (Nat.toDigits 10 n).map Char.toUInt8

/-- `{:02x}` of a byte. -/
def hexPieces (b : UInt8) : List (List UInt8) :=
  (if b.toNat < 16 then [ascii "0"] else []) ++ [(Nat.toDigits 16 b.toNat).map Char.toUInt8]

/-- The terminator of a C string. -/
def nul : List UInt8 := [0]

/-! ## The texts -/

/-- `core::panic::Location`; the file as its bytes. -/
structure Location where
  file : List UInt8
  line : UInt32

/-- The text so far, before the NUL. -/
def panicMessage (location : Option Location) : HeaplessString 160 :=
  let s := Text.empty.write [ascii "runtime-ble panic"]
  match location with
  | some loc => s.write [ascii " @ ", loc.file, ascii ":", decimal loc.line.toNat]
  | none => s

/-- What `panic` hands to `runtime_ble_fatal`. -/
def panicText (location : Option Location) : HeaplessString 160 :=
  (panicMessage location).write [nul]

/-- The line for the end of a link. -/
def disconnectText (reason : UInt8) : HeaplessString 48 :=
  Text.empty.write ([ascii "[link] disconnected reason=0x"] ++ hexPieces reason ++ [nul])

/-- `log_required_mem`, with the answer of `required_memory` and the pool. -/
def requiredMemText (req : Option UInt32) (pool : UInt32) : HeaplessString 56 :=
  match req with
  | some r =>
      Text.empty.write [ascii "[runtime-ble] sdc mem: need ", decimal r.toNat, ascii " have ",
        decimal pool.toNat, nul]
  | none => Text.empty.write [ascii "[runtime-ble] sdc required_memory query failed" ++ nul]

/-- A reader of the C string comes to an end inside the buffer. -/
def Terminated {n : Nat} (s : HeaplessString n) : Prop := 0 ∈ s.items

instance {n : Nat} (s : HeaplessString n) : Decidable (Terminated s) :=
  inferInstanceAs (Decidable (0 ∈ s.items))

/-! ## Lengths -/

theorem length_decimal_pos (n : Nat) : 0 < (decimal n).length := by
  rw [decimal, List.length_map]
  exact Nat.length_toDigits_pos

theorem length_decimal_le (n : UInt32) : (decimal n.toNat).length ≤ 10 := by
  have hlt : n.toNat < 10 ^ 10 := Nat.lt_trans n.toNat_lt (by decide)
  rw [decimal, List.length_map]
  exact (Nat.length_toDigits_le_iff (by decide) (by decide)).mpr hlt

theorem ascii_append (s t : String) : ascii (s ++ t) = ascii s ++ ascii t := by
  rw [ascii, String.toList_append, List.map_append]
  rfl

/-- The padding makes it two digits. -/
theorem flatten_hexPieces (b : UInt8) : (hexPieces b).flatten = ascii (hexDigits b) := by
  have hlt : b.toNat < 256 := b.toNat_lt
  rw [ascii, hexDigits, String.toList_ofList]
  unfold hexPieces
  split
  · rename_i hsmall
    rw [Nat.toDigits_of_lt_base hsmall, Nat.div_eq_of_lt hsmall, Nat.mod_eq_of_lt hsmall]
    rfl
  · rename_i hlarge
    rw [Nat.toDigits_of_base_le (by decide) (by omega), Nat.toDigits_of_lt_base (by omega)]
    rfl

theorem zero_not_mem_decimal (n : Nat) : 0 ∉ decimal n := by
  intro h
  obtain ⟨c, hc, hzero⟩ := List.mem_map.mp h
  have hdigit : c.isDigit = true := Nat.isDigit_of_mem_toDigits (by decide) (by decide) hc
  simp only [Char.isDigit, Bool.and_eq_true, decide_eq_true_eq, UInt32.le_iff_toNat_le] at hdigit
  have hlow : 48 ≤ c.val.toNat := hdigit.1
  have hhigh : c.val.toNat ≤ 57 := hdigit.2
  have hmod : c.val.toNat % 256 = 0 := by
    rw [← UInt32.toNat_toUInt8]
    exact congrArg UInt8.toNat hzero
  omega

/-! ## Is the NUL there? -/

/-- Where all fits, the NUL does. -/
theorem terminated_of_fits {n : Nat} {pieces : List (List UInt8)}
    (h : pieces.flatten.length < n) :
    Terminated ((Text.empty : HeaplessString n).write (pieces ++ [nul])) := by
  have hfits : (Text.empty : HeaplessString n).items.length + (pieces ++ [nul]).flatten.length
      ≤ n := by
    rw [Text.items_empty, List.flatten_append, List.length_append, List.length_nil]
    simp only [nul, List.flatten_singleton, List.length_singleton]
    omega
  rw [Terminated, Text.items_write hfits, List.flatten_append]
  simp [nul]

/-- The NUL is written if there is a byte left. -/
theorem terminated_write_nul {n : Nat} {s : HeaplessString n} :
    Terminated (s.write [nul]) ↔ s.items.length < n ∨ 0 ∈ s.items := by
  by_cases hroom : s.items.length < n
  · have hfits : s.items.length + [nul].flatten.length ≤ n := hroom
    rw [Terminated, Text.items_write hfits]
    simp [nul, hroom]
  · have hfull : n < s.items.length + nul.length := by
      rw [nul, List.length_singleton]
      omega
    rw [Text.write_cons_of_not_fits hfull]
    simp [hroom, Terminated]

theorem ascii_disconnectedLine (reason : UInt8) :
    ascii (disconnectedLine reason)
      = ascii "[link] disconnected reason=0x" ++ ascii (hexDigits reason) :=
  ascii_append "[link] disconnected reason=0x" (hexDigits reason)

/-- Without its NUL the text is the line that is logged. -/
theorem flatten_disconnect (reason : UInt8) :
    ([ascii "[link] disconnected reason=0x"] ++ hexPieces reason).flatten
      = ascii (disconnectedLine reason) := by
  rw [List.flatten_append, List.flatten_singleton, flatten_hexPieces]
  exact (ascii_disconnectedLine reason).symm

theorem length_hexDigits (b : UInt8) : (ascii (hexDigits b)).length = 2 := by
  rw [ascii, hexDigits, String.toList_ofList, List.length_map]
  rfl

theorem length_disconnectedLine (reason : UInt8) :
    (ascii (disconnectedLine reason)).length = 31 := by
  have hlead : (ascii "[link] disconnected reason=0x").length = 29 := rfl
  rw [ascii_disconnectedLine, List.length_append]
  exact congrArg₂ (· + ·) hlead (length_hexDigits reason)

theorem terminated_disconnectText (reason : UInt8) : Terminated (disconnectText reason) := by
  apply terminated_of_fits
  have hlength := length_disconnectedLine reason
  rw [← flatten_disconnect] at hlength
  omega

/-- The text is the line that is logged, with its NUL. -/
theorem items_disconnectText (reason : UInt8) :
    (disconnectText reason).items = ascii (disconnectedLine reason) ++ nul := by
  have hline := flatten_disconnect reason
  have hall : ([ascii "[link] disconnected reason=0x"] ++ hexPieces reason ++ [nul]).flatten
      = ascii (disconnectedLine reason) ++ nul := by
    rw [List.flatten_append, hline, List.flatten_singleton]
  have hfits : (Text.empty : HeaplessString 48).items.length
      + ([ascii "[link] disconnected reason=0x"] ++ hexPieces reason ++ [nul]).flatten.length
      ≤ 48 := by
    rw [hall, List.length_append, length_disconnectedLine]
    decide
  rw [disconnectText, Text.items_write hfits, hall]
  rfl

theorem terminated_requiredMemText (req : Option UInt32) (pool : UInt32) :
    Terminated (requiredMemText req pool) := by
  cases req with
  | none =>
      show Terminated (Text.empty.write [_])
      decide
  | some r =>
      have hreq := length_decimal_le r
      have hpool := length_decimal_le pool
      have hneed : (ascii "[runtime-ble] sdc mem: need ").length = 28 := rfl
      have hhave : (ascii " have ").length = 6 := rfl
      have hfits : [ascii "[runtime-ble] sdc mem: need ", decimal r.toNat, ascii " have ",
          decimal pool.toNat].flatten.length < 56 := by
        simp only [List.flatten_cons, List.length_append, hneed, hhave, List.flatten_nil,
          List.length_nil]
        omega
      exact terminated_of_fits hfits

/-! ## The message of a panic -/

/-- The bytes of the file and of the line are such that the message fills the
buffer to its last byte. -/
def FillsBuffer (loc : Location) : Prop :=
  loc.file.length = 139 ∨ loc.file.length = 140
    ∨ loc.file.length + (decimal loc.line.toNat).length = 139

/-- What a panic's text begins with. -/
def panicPrefix : List UInt8 := ascii "runtime-ble panic" ++ ascii " @ "

/-- What is written of a location: all of it, or what comes before the first
piece that does not fit. -/
theorem items_panicMessage (loc : Location) :
    (panicMessage (some loc)).items
      = if 140 < loc.file.length then panicPrefix
        else if loc.file.length = 140 then panicPrefix ++ loc.file
        else if loc.file.length + (decimal loc.line.toNat).length ≤ 139 then
          panicPrefix ++ loc.file ++ ascii ":" ++ decimal loc.line.toNat
        else panicPrefix ++ loc.file ++ ascii ":" := by
  have hlead : panicPrefix.length = 20 := rfl
  have hcolon : (ascii ":").length = 1 := rfl
  have hmessage : panicMessage (some loc)
      = (⟨panicPrefix, by decide⟩ : HeaplessString 160).write
          [loc.file, ascii ":", decimal loc.line.toNat] := rfl
  rw [hmessage]
  split
  · rename_i hlong
    rw [Text.write_cons_of_not_fits]
    show 160 < panicPrefix.length + loc.file.length
    omega
  · have hfile : panicPrefix.length + loc.file.length ≤ 160 := by omega
    have hlength : (panicPrefix ++ loc.file).length = 20 + loc.file.length := by
      rw [List.length_append, hlead]
    rw [Text.write_cons_of_fits hfile]
    split
    · rename_i hexact
      rw [Text.write_cons_of_not_fits]
      show 160 < (panicPrefix ++ loc.file).length + (ascii ":").length
      omega
    · rename_i hshort
      have hsep : (panicPrefix ++ loc.file).length + (ascii ":").length ≤ 160 := by omega
      rw [Text.write_cons_of_fits hsep]
      split
      · rename_i hline
        rw [Text.write_cons_of_fits]
        · rfl
        · show (panicPrefix ++ loc.file ++ ascii ":").length + _ ≤ 160
          rw [List.length_append]
          omega
      · rename_i hline
        rw [Text.write_cons_of_not_fits]
        show 160 < (panicPrefix ++ loc.file ++ ascii ":").length + _
        rw [List.length_append]
        omega

theorem length_panicMessage_lt_iff (loc : Location) :
    (panicMessage (some loc)).items.length < 160 ↔ ¬ FillsBuffer loc := by
  have hlead : panicPrefix.length = 20 := rfl
  have hcolon : (ascii ":").length = 1 := rfl
  have hline := length_decimal_pos loc.line.toNat
  rw [items_panicMessage, FillsBuffer]
  split
  · omega
  · split
    · rw [List.length_append]
      omega
    · split
      · simp only [List.length_append, hlead, hcolon]
        omega
      · simp only [List.length_append, hlead, hcolon]
        omega

theorem zero_mem_panicMessage_iff (loc : Location) :
    0 ∈ (panicMessage (some loc)).items ↔ 0 ∈ loc.file ∧ loc.file.length ≤ 140 := by
  have hlead : 0 ∉ panicPrefix := by decide
  have hcolon : 0 ∉ ascii ":" := by decide
  have hline := zero_not_mem_decimal loc.line.toNat
  rw [items_panicMessage]
  split
  · rename_i hlong
    simp [hlead, Nat.not_le.mpr hlong]
  · rename_i hle
    have hwritten : loc.file.length ≤ 140 := Nat.le_of_not_lt hle
    split
    · simp [hlead, hwritten]
    · split
      · simp [hlead, hcolon, hline, hwritten]
      · simp [hlead, hcolon, hwritten]

/-- The message of a panic is terminated unless it fills the buffer, or
where a NUL of the file name is written. -/
theorem terminated_panicText_iff (location : Option Location) :
    Terminated (panicText location)
      ↔ ∀ loc, location = some loc →
          ¬ FillsBuffer loc ∨ 0 ∈ loc.file ∧ loc.file.length ≤ 140 := by
  cases location with
  | none =>
      constructor
      · intro _ loc h
        cases h
      · intro _
        decide
  | some loc =>
      rw [panicText, terminated_write_nul, length_panicMessage_lt_iff, zero_mem_panicMessage_iff]
      simp only [Option.some.injEq, forall_eq']

/-- **Every text handed to C is terminated**, but for the message of a panic
that fills its buffer to the last byte. -/
theorem texts_terminated_iff (location : Option Location) (reason : UInt8)
    (req : Option UInt32) (pool : UInt32) :
    (Terminated (panicText location) ∧ Terminated (disconnectText reason)
        ∧ Terminated (requiredMemText req pool))
      ↔ ∀ loc, location = some loc →
          ¬ FillsBuffer loc ∨ 0 ∈ loc.file ∧ loc.file.length ≤ 140 := by
  rw [← terminated_panicText_iff]
  constructor
  · intro h
    exact h.1
  · intro h
    exact ⟨h, terminated_disconnectText reason, terminated_requiredMemText req pool⟩

/-- A path of 136 bytes, and a line of three digits. -/
def crateLocation : Location where
  file := List.replicate 136 0x61
  line := 120

theorem panic_not_terminated :
    ¬ Terminated (panicText (some crateLocation)) := by
  have hfills : FillsBuffer crateLocation := by
    refine .inr (.inr ?_)
    rw [crateLocation, List.length_replicate]
    rfl
  have hfile : 0 ∉ crateLocation.file := by
    intro h
    cases (List.mem_replicate.mp h).2
  intro h
  rcases terminated_panicText_iff _ |>.mp h crateLocation rfl with hroom | hzero
  · exact hroom hfills
  · exact hfile hzero.1

end RuntimeBle
