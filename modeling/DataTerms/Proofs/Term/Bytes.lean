/-
# The bytes of a term's message

A term's message uses few of the fields there are: the sends or the only expression of a
process, the items of a list, the channel and the payload of a send. What its bytes are is
read off here, shape by shape, without the fields that are left out.

Key theorems: `Term.encode_literal`, `Term.encode_list`, `Term.encode_sends`,
`Term.encode_send`, `Term.encodeSends_entry`.
-/
import DataTerms.Term.Par

namespace DataTerms
namespace Term

open Wire

theorem encode_parOfInstance (kind : Instance) :
    (parOfInstance kind).encode = bytesField 5 kind.encode := by
  simp [parOfInstance, Par.encode, encodeSends, encodeExprs, Expr.encode, encodeKind,
    repeatedBytesField, implicitBytesField, flagField]

theorem encode_nil : nil.toPar.encode = [] := by
  simp [toPar, Par.encode, encodeSends, encodeExprs, repeatedBytesField, implicitBytesField,
    flagField]

theorem encode_literal (value : Literal) :
    (literal value).toPar.encode = bytesField 5 (instanceOfLiteral value).encode := by
  rw [toPar, encode_parOfInstance]

theorem encode_list (items : List Term) :
    (list items).toPar.encode = bytesField 5 (bytesField 20 (encodePars 1 (itemsToPar items))) := by
  rw [toPar, encode_parOfInstance, Instance.encode]
  simp [EList.encode, implicitBytesField, flagField]

theorem encode_sends (entries : List Send) :
    (sends entries).toPar.encode = encodeSends (entriesToPar entries) := by
  simp [toPar, Par.encode, encodeExprs, repeatedBytesField, implicitBytesField, flagField]

/-- A message on a channel without a mark of a pattern has two fields. -/
theorem encode_send (chan : Par) (data : List Par) :
    Wire.Send.encode { chan := some chan, data := data } =
      bytesField 1 chan.encode ++ encodePars 2 data := by
  rw [Wire.Send.encode, encodeChan]
  simp [implicitBytesField, flagField]

/-- The bytes of an entry of a map: those of its key and those of its value. -/
theorem encodeSends_entry (key : String) (value : Term) (rest : List Send) :
    encodeSends (entriesToPar (.entry key value :: rest)) =
      bytesField 1 (bytesField 1 (bytesField 5 (bytesField 3 (Utf8.encode key))) ++
        bytesField 2 value.toPar.encode) ++ encodeSends (entriesToPar rest) := by
  rw [Send.entry, entriesToPar, encodeSends, encode_send, str, encode_literal, instanceOfLiteral,
    Instance.encode, itemsToPar, itemsToPar, encodePars, encodePars, List.append_nil]

end Term
end DataTerms
