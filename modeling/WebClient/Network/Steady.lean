import WebClient.Network

/-!
# A steady network

The simplest network: every step succeeds, whatever is sent is taken, and every
connection brings the same.
-/

set_option autoImplicit false

namespace WebClient.Network

def steady (feed : Feed) : Network Unit where
  dial _ _ _ := ((), .connected)
  tunnel _ _ := ((), .taken)
  channel := { write _ _ := ((), none), flush _ := ((), none) }
  secure _ _ _ _ := ((), .established)
  incoming _ := feed
  hangUp _ := ()

end WebClient.Network
