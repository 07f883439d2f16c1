import Lodp.Wire
import Lodp.Core
import Lodp.Envelope
import Lodp.Cookie
import Lodp.Ntor
import Lodp.Egress
import Lodp.Handlers
import Lodp.Ingress
import Lodp.Handshake
import Lodp.RoundTrip
import Lodp.Run
import Lodp.Rejection
import Lodp.Responder
import Lodp.Initiator
import Lodp.Exchange
import Lodp.Table
import Lodp.Mss
import Lodp.Connect
import Lodp.Scrub
import Lodp.Delivery
import Lodp.Asserts
import Lodp.Retransmit
import Lodp.Callbacks
import Lodp.Failure
import Lodp.Amplification
import Lodp.Isolation
import Lodp.Sends
import Lodp.Client
import Lodp.PeerView
import Lodp.Rotation
