import TheokitGateways.Gateway.OwnedListener

/-!
# Nextcloud Talk and Google Chat: `connect` and `disconnect`

The two adapters that own a webhook listener by generation. Nextcloud Talk reads
the server's capabilities before it starts the listener; Google Chat reads its
private key, which may throw at once, and then asks for a first access token.
-/

namespace TheokitGateways
open Js Gateway Transition

end TheokitGateways
