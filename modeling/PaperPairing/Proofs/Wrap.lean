import PaperPairing.Proofs.Cipher.Cbc
import PaperPairing.Wrap

/-!
# Wrapped secrets open

Whoever holds both keys gets back what was wrapped, whatever its length and
whatever the initialisation vector.
-/

namespace PaperPairing
namespace Wrap

theorem length_wrap (keys : SessionKeys) (iv : Fixed 16) (data : Bytes) :
    (wrap keys iv data).length = 16 * ((data.length + 8) / 16) + 32 := by
  rw [wrap, List.length_append, Cbc.length_encrypt, List.length_append, length_check,
    iv.length_bytes]
  omega

theorem unwrap?_wrap (keys : SessionKeys) (iv : Fixed 16) (data : Bytes) :
    unwrap? keys (wrap keys iv data) = some data := by
  have hcut : (wrap keys iv data).length - 16 =
      (Cbc.encrypt keys.wrapKey iv (data ++ check keys data)).length := by
    rw [wrap, List.length_append, iv.length_bytes]
    omega
  have hdata : (data ++ check keys data).length - tagLength = data.length := by
    rw [List.length_append, length_check, tagLength]
    omega
  have hlong : ¬ (data ++ check keys data).length < tagLength := by
    rw [List.length_append, length_check, tagLength]
    omega
  rw [unwrap?, hcut, wrap, List.drop_left, List.take_left, Fixed.ofBytes?_bytes]
  simp only [Option.bind_eq_bind, Option.bind_some, Cbc.decrypt?_encrypt]
  rw [if_neg hlong, hdata, List.take_left, List.drop_left, if_pos rfl]

end Wrap
end PaperPairing
