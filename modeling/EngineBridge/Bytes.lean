/-! Equality of byte arrays, which is equality of their data. -/
namespace EngineBridge

/-- Comes before any other instance, so that what is derived from it does not depend on which other
libraries are in scope. -/
instance (priority := 2000) instDecidableEqBytes : DecidableEq ByteArray := fun a b =>
  decidable_of_iff (a.data = b.data) ⟨fun h => ByteArray.ext h, fun h => h ▸ rfl⟩

end EngineBridge
