import BoundSql.Value

/-! Types whose terms can be bound to a placeholder. Small integers and single precision numbers
are widened, which loses nothing, and an absent term is bound as null. -/

namespace BoundSql

/-- A type whose terms can be sent as values. -/
class Bindable (α : Type) where
  toValue : α → Value

export Bindable (toValue)

instance : Bindable Value := ⟨id⟩
instance : Bindable Bool := ⟨.bool⟩
instance : Bindable Int8 := ⟨fun n => .int n.toInt64⟩
instance : Bindable Int16 := ⟨fun n => .int n.toInt64⟩
instance : Bindable Int32 := ⟨fun n => .int n.toInt64⟩
instance : Bindable Int64 := ⟨.int⟩
instance : Bindable UInt8 := ⟨fun n => .int (.ofNat n.toNat)⟩
instance : Bindable UInt16 := ⟨fun n => .int (.ofNat n.toNat)⟩
instance : Bindable UInt32 := ⟨fun n => .int (.ofNat n.toNat)⟩
instance : Bindable Binary64 := ⟨.float⟩
instance : Bindable Binary32 := ⟨fun x => .float x.widen⟩
instance : Bindable String := ⟨.text⟩
instance : Bindable (List UInt8) := ⟨.blob⟩

instance {α : Type} [Bindable α] : Bindable (Option α) := ⟨fun o => o.elim .null toValue⟩

end BoundSql
