import Mainline.Address.Text
import Mainline.Random
import Mainline.Sha1

/-!
# Tokens

Whoever asks a node for peers is given a token and has to show it to announce itself as a peer
later. A token is cut from a digest of a secret and of the asker's IP address, so it needs no
memory and is of no use to anyone else. The secret changes from time to time; tokens made with the
one before stay valid until the next change.
-/

namespace Mainline

/-- The secret that tokens are made with, and the one before. -/
structure TokenSecrets where
  current : Bytes
  previous : Bytes
deriving DecidableEq, Repr

namespace TokenSecrets

/-- The number of octets of a secret. -/
def secretLength : Nat := 16

/-- The number of octets of a token. -/
def tokenLength : Nat := 8

/-- Two random secrets. -/
def generate (stream : ByteStream) : TokenSecrets × ByteStream :=
  let (current, stream) := stream.take secretLength
  let (previous, stream) := stream.take secretLength
  (⟨current, previous⟩, stream)

/-- A new random secret; the current one becomes the one before. -/
def rotate (secrets : TokenSecrets) (stream : ByteStream) : TokenSecrets × ByteStream :=
  let (current, stream) := stream.take secretLength
  (⟨current, secrets.current⟩, stream)

/-- The token that a secret makes for a host. -/
def make (secret : Bytes) (host : IP) : Bytes :=
  (Sha1.digest (secret ++ ascii host.toString)).take tokenLength

/-- The token to give to a host. -/
def token (secrets : TokenSecrets) (host : IP) : Bytes :=
  make secrets.current host

/-- Was the token made for this host, with the current secret or the one before? -/
def isValid (secrets : TokenSecrets) (host : IP) (token : Bytes) : Bool :=
  make secrets.current host == token || make secrets.previous host == token

end TokenSecrets

end Mainline
