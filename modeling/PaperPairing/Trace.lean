import PaperPairing.Group.Modp2048

/-!
# A recorded exchange

The values of one exchange between a client and a device, in the form in which
they were written down.  The device's value belongs to a fixed exponent, and
the values after it were computed from it.
-/

namespace PaperPairing
namespace Trace

def exponent : Nat :=
  50614096391648629485607403163385118879437263429458678389725629493477950995502

def publicKey : String :=
  String.join
    ["006faeac596443e64b0ff8bc4959f8104585f22963d2f5e19ed9e3a6fa664c43",
     "3d445fa7c18add6eb3bbf7b3a24c564fb0316b37d6984e9b5adacede7fed89bf",
     "2616d73b71430fb2fdcbe8ba7db08d21ab4d02e7687a58d5287138f0f809d67f",
     "fdaa5782a769f92e6d126e8bc984f934b116c37cd269ba214faed2fd25119332",
     "045d0aee4b72ce283659e72fe27b77425cd9d8b21d1d8483610ecff317eba14c",
     "a7c100b7d0c902dfd34fdffe7653533ebbd7ce073bbf9c300d8509de3501702e",
     "48e28b76886af7fe10074768f485727425c040921e776c28bedfc22799bf1cb9",
     "a9caa9bd110abe875afff1bfad1ee05da016747e5a7635977bae8c2ed2079618",
     "30"]

def contribution : String :=
  String.join
    ["4cb81a98f2a2202b0bd35a2be075b1c0d35053ef1210490b751d9cf3c8ca8db9",
     "28d6c91db1fd8289a7b5935e5e0c86eca745538b6840ceeabf8851684222536f",
     "194ce43d94d59a734c33c29ae51ec874e1185d3ed498b0f8816866822ab52195",
     "82b9e46ffb7285d755b6a39526e8c4e1aba70c1e5e19a3b99df04a0ad36ecc7b",
     "72d9bac31d0ae1e1bf0189464f76472a3f9d874ebe2185ca9fe1dc6bb5a1a8dc",
     "e7668cbb67765e9551b03bdb8148afeb35be79939acf9692b9303c2a184e7024",
     "adc8bb3dc5cd075fb1703b16b9e60540762e7077bcc3dd827ba01031a3bdec54",
     "47e949d42352f57127343f17ac71e6710d2c14747f26812ab5c1d84520ce6bcc"]

def sharedSecret : String :=
  String.join
    ["8922cc5a1099fc473f01b8808fd48fafeb4ef19a2544e92aa1eb6abe8e3a4f25",
     "af234c073835166bf1730ac6f028e699d1c9200b8cb3c4e0839820cab0852fa9",
     "ae08f1a72b70879454d2fa6db0bf57af9b74eb09f0514dc6c3f42eaa44038a39",
     "4dfb597b6d75f9e738c7db492aed0aeede6cb7d147705e41d3af673e6c338d0d",
     "30a130b03c94e3107ec4a6604d4cae2f8a75c9644676e52eab5e531213171945",
     "ad59c801b6ed1f0950fe6d5d14484208162559a09a03262c9916b2da299bb06e",
     "21e0bd06876535a8709df64cd9f0bdc29b7f348b2946bb32bd7e985f1b4cd742",
     "faaad7825dc8222412c50970f4924b72543b6229b150ac62412ed18b9d0b737d"]

def keyMaterial : String :=
  String.join
    ["a6983dc40649a45cb74296b652005e1d5e88c8d81a09e855ddc417e86ddd6b53",
     "55d9fceb73bf017dd8695240f1424030"]

def nonce1 : String := "hn4v6BLaRl+UWIRfXs9VHA=="

def mac : String := "rImV9/iZ"

def nonce2 : Bytes :=
  [0x1D, 0xD8, 0x5B, 0xD4, 0x53, 0x50, 0x7F, 0x82,
   0x03, 0x54, 0xA4, 0x4C, 0x6F, 0x95, 0x84, 0xC2]

def h2 : String := "bai2lZTvbjxPn5UPxgkV6zYV4XjCTEsMDVHjG1brGIQ="

def keyPair : Modp2048.KeyPair :=
  ⟨exponent⟩

end Trace
end PaperPairing
