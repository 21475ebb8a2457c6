import EngineBridge.Proofs.Text.Streaming

/-! What a decoder holds between chunks. Whatever bytes it was given, valid or not, that is the
beginning of a character or nothing, and its loop over a chunk goes on only with fewer bytes. -/
namespace EngineBridge.Utf8

/-- Bytes that later ones can complete to a character, or none at all. None of them tells already
that the character would be spelled in too many bytes, be a surrogate or lie beyond the last one. -/
structure IsLive (held : List UInt8) : Prop where
  begins : held = [] ∨ ∃ c, held <+: String.utf8EncodeChar c ∧ held ≠ String.utf8EncodeChar c
  length_le : held.length ≤ 3
  lead_bounds : ∀ lead rest, held = lead :: rest → 0xC2 ≤ lead ∧ lead ≤ 0xF4
  not_overlong : ∀ second rest, (held = 0xE0 :: second :: rest → 0xA0 ≤ second) ∧
    (held = 0xF0 :: second :: rest → 0x90 ≤ second)
  not_surrogate : ∀ second rest, held = 0xED :: second :: rest → second ≤ 0x9F
  not_beyond : ∀ second rest, held = 0xF4 :: second :: rest → second ≤ 0x8F

theorem isLive_nil : IsLive [] where
  begins := .inl rfl
  length_le := Nat.zero_le 3
  lead_bounds := nofun
  not_overlong _ _ := ⟨nofun, nofun⟩
  not_surrogate := nofun
  not_beyond := nofun

theorem lead_of_isPartial {lead : UInt8} {rest : List UInt8} (h : isPartial (lead :: rest)) :
    rest.length ≤ 2 ∧ (0xC2 ≤ lead.toNat ∧ lead.toNat ≤ 0xF4) ∧
      ∀ second more, rest = second :: more → secondFits lead second := by
  rcases rest with _ | ⟨b, _ | ⟨c, _ | ⟨d, rest⟩⟩⟩
  case cons.cons.cons => cases h
  all_goals
    simp only [isPartial, Bool.and_eq_true, decide_eq_true_eq, UInt8.le_iff_toNat_le,
      UInt8.reduceToNat] at h
  · refine ⟨Nat.zero_le 2, h, ?_⟩
    rintro second more ⟨⟩
  · refine ⟨by simp, by omega, ?_⟩
    rintro second more ⟨⟩
    exact h.2
  · refine ⟨by simp, by omega, ?_⟩
    rintro second more ⟨⟩
    exact h.1.2

theorem isLive_of_unfinished {lead : UInt8} {rest : List UInt8} (h : head lead rest = .unfinished) :
    IsLive (lead :: rest) := by
  obtain ⟨hlength, hlead, hsecond⟩ := lead_of_isPartial (isPartial_iff.mpr h)
  have hfits (second : UInt8) (more : List UInt8) {a : UInt8}
      (hheld : lead :: rest = a :: second :: more) : secondFits a second := by
    obtain ⟨rfl, hrest⟩ := List.cons.inj hheld
    exact hsecond second more hrest
  constructor
  case begins =>
    obtain ⟨c, more, hc, hmore⟩ := exists_utf8EncodeChar_of_unfinished h
    refine .inr ⟨c, ⟨more, hc.symm⟩, fun hall => hmore ?_⟩
    rwa [hc, List.self_eq_append_right] at hall
  case length_le =>
    rw [List.length_cons]
    omega
  case lead_bounds =>
    rintro a more ⟨⟩
    exact ⟨UInt8.le_iff_toNat_le.mpr hlead.1, UInt8.le_iff_toNat_le.mpr hlead.2⟩
  case not_overlong =>
    intro second more
    constructor
    · intro hheld
      exact UInt8.le_iff_toNat_le.mpr ((secondFits_iff.mp (hfits second more hheld)).2.1 rfl)
    · intro hheld
      exact UInt8.le_iff_toNat_le.mpr ((secondFits_iff.mp (hfits second more hheld)).2.2.2.1 rfl)
  case not_surrogate =>
    intro second more hheld
    exact UInt8.le_iff_toNat_le.mpr ((secondFits_iff.mp (hfits second more hheld)).2.2.1 rfl)
  case not_beyond =>
    intro second more hheld
    exact UInt8.le_iff_toNat_le.mpr ((secondFits_iff.mp (hfits second more hheld)).2.2.2.2 rfl)

namespace Decoder

theorem IsPartial.isLive {d : Decoder} (h : d.IsPartial) : IsLive d.held := by
  cases hheld : d.held with
  | nil => exact isLive_nil
  | cons lead rest => exact isLive_of_unfinished (h lead rest hheld)

inductive Op where
  | decode (chunk : ByteArray)
  | finish

def perform (d : Decoder) : Op → Decoder
  | .decode chunk => (d.decode chunk).1
  | .finish => d.finish.1

def performed (d : Decoder) (ops : List Op) : Decoder := ops.foldl perform d

theorem isPartial_perform (d : Decoder) (op : Op) : (d.perform op).IsPartial := by
  cases op with
  | decode chunk => exact isPartial_of_readInto "" _
  | finish => exact nofun

theorem isPartial_performed {d : Decoder} (h : d.IsPartial) (ops : List Op) :
    (d.performed ops).IsPartial := by
  induction ops generalizing d with
  | nil => exact h
  | cons op ops ih => exact ih (d.isPartial_perform op)

inductive Pass where
  | goesOn (text : String) (rest : List UInt8)
  | ends (d : Decoder) (text : String)
  deriving DecidableEq

def pass (text : String) (bytes : List UInt8) : Pass :=
  match fault? bytes with
  | none => .ends {} (text ++ textOf bytes)
  | some ⟨validUpTo, none⟩ => .ends ⟨bytes.drop validUpTo⟩ (text ++ textOf (bytes.take validUpTo))
  | some ⟨validUpTo, some length⟩ =>
    .goesOn ((text ++ textOf (bytes.take validUpTo)).push replacement)
      ((bytes.drop validUpTo).drop length)

/-- So many passes, if the loop ends within them. -/
def passes : Nat → String → List UInt8 → Option (Decoder × String)
  | 0, _, _ => none
  | n + 1, text, bytes =>
    match pass text bytes with
    | .goesOn text rest => passes n text rest
    | .ends d text => some (d, text)

theorem exists_consumed_of_pass {text text' : String} {bytes rest : List UInt8}
    (h : pass text bytes = .goesOn text' rest) :
    ∃ consumed, consumed ≠ [] ∧ bytes = consumed ++ rest := by
  unfold pass at h
  split at h
  · cases h
  · cases h
  · rename_i validUpTo length hfault
    obtain ⟨hlength, hbytes⟩ := pos_of_faultFrom hfault
    obtain ⟨-, rfl⟩ := Pass.goesOn.inj h
    refine ⟨bytes.take (validUpTo + length), ?_, ?_⟩
    · rw [Ne, List.take_eq_nil_iff]
      rintro (hnone | hnone)
      · omega
      · exact hbytes hnone
    · rw [List.drop_drop, List.take_append_drop]

theorem readInto_of_goesOn {text text' : String} {bytes rest : List UInt8}
    (h : pass text bytes = .goesOn text' rest) : readInto text bytes = readInto text' rest := by
  unfold pass at h
  split at h
  · cases h
  · cases h
  · rename_i hfault
    obtain ⟨rfl, rfl⟩ := Pass.goesOn.inj h
    exact readInto_of_broken text hfault

theorem readInto_of_ends {text text' : String} {bytes : List UInt8} {d : Decoder}
    (h : pass text bytes = .ends d text') : readInto text bytes = (d, text') := by
  unfold pass at h
  split at h
  · rename_i hfault
    obtain ⟨rfl, rfl⟩ := Pass.ends.inj h
    exact readInto_of_none text hfault
  · rename_i hfault
    obtain ⟨rfl, rfl⟩ := Pass.ends.inj h
    exact readInto_of_unfinished text hfault
  · cases h

/-- There is at most one pass more than there are bytes. -/
theorem passes_of_length_lt {n : Nat} (text : String) {bytes : List UInt8} (h : bytes.length < n) :
    passes n text bytes = some (readInto text bytes) := by
  induction n generalizing text bytes with
  | zero => exact absurd h (Nat.not_lt_zero _)
  | succ n ih =>
    rw [passes]
    cases hpass : pass text bytes with
    | goesOn text' rest =>
      obtain ⟨consumed, hconsumed, rfl⟩ := exists_consumed_of_pass hpass
      have hfewer := List.length_pos_iff.mpr hconsumed
      rw [List.length_append] at h
      rw [readInto_of_goesOn hpass]
      exact ih text' (by omega)
    | ends d text' => rw [readInto_of_ends hpass]

/-- However a decoder has been used, it holds nothing or the proper beginning of a character, three
bytes at most, and nothing once it has been finished. Its loop over more bytes comes to an end, as
each pass but the last uses up at least one of them. -/
theorem performed_holds_begun (ops : List Op) :
    let d := performed {} ops
    IsLive d.held ∧ d.pending ≤ 3 ∧ d.finish.1.pending = 0 ∧
    (∀ chunk : ByteArray,
      let bytes := d.held ++ chunk.data.toList
      passes (bytes.length + 1) "" bytes = some (d.decode chunk)) ∧
    ∀ text bytes text' rest, pass text bytes = .goesOn text' rest →
      ∃ consumed, consumed ≠ [] ∧ bytes = consumed ++ rest := by
  intro d
  have hlive : IsLive d.held := (isPartial_performed hasRead_nil.isPartial ops).isLive
  refine ⟨hlive, hlive.length_le, rfl, fun chunk => ?_, fun _ _ _ _ => exists_consumed_of_pass⟩
  exact passes_of_length_lt "" (Nat.lt_succ_self _)

theorem performed_holds_begun_after_fault :
    let ops : List Op := [.decode ⟨#[0x61, 0xE2, 0x82]⟩, .decode ⟨#[0xFF, 0xF0, 0x9F]⟩]
    (performed {} ops).held = [0xF0, 0x9F] ∧ IsLive (performed {} ops).held ∧
      pass "" [0xE2, 0x82, 0xFF, 0xF0, 0x9F] = .goesOn "\uFFFD" [0xFF, 0xF0, 0x9F] ∧
      ∃ consumed, consumed ≠ [] ∧
        [0xE2, 0x82, 0xFF, 0xF0, 0x9F] = consumed ++ ([0xFF, 0xF0, 0x9F] : List UInt8) := by
  intro ops
  have hpass : pass "" [0xE2, 0x82, 0xFF, 0xF0, 0x9F] = .goesOn "\uFFFD" [0xFF, 0xF0, 0x9F] := by
    decide +kernel
  obtain ⟨hlive, -, -, -, hpasses⟩ := performed_holds_begun ops
  exact ⟨by decide +kernel, hlive, hpass, hpasses _ _ _ _ hpass⟩

end Decoder

end EngineBridge.Utf8
