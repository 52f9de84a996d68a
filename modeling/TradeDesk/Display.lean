import TradeDesk.Num
import TradeDesk.Decimal.Text

/-!
# Numbers in messages

The router's warnings and recommendations quote numbers in two ways: with a fixed number of
decimal places (`Display.fixed`, as in `1.25%`) and as the value itself (`Display.text`, the
shortest text that reads back as the same binary64 value). `Num` and `Float` write both through
`TradeDesk.Decimal`; a whole number given fixed places is first converted to binary64.
-/

namespace TradeDesk

/-- How a number type writes its values into messages. -/
class Display (α : Type) where
  /-- The value rounded to `places` decimal places. -/
  fixed : Nat → α → String
  /-- The value as written in answers. -/
  text : α → String

instance : Display Float := ⟨Decimal.fixed, Decimal.text⟩

instance : Display Num := ⟨fun places n => Decimal.fixed places n.toFloat, Num.text⟩

end TradeDesk
