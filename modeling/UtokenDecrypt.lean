import UtokenDecrypt.MainFaults
import UtokenDecrypt.Card.Trace
import UtokenDecrypt.Usb.Open
import UtokenDecrypt.Card.Result
import UtokenDecrypt.Card.Wire
import UtokenDecrypt.Alloc.Run
import UtokenDecrypt.BufferFile
import UtokenDecrypt.BufferLog
import UtokenDecrypt.Card.Bounded
import UtokenDecrypt.Card.Crash
import UtokenDecrypt.Card.Chaining
import UtokenDecrypt.Card.EndToEnd
import UtokenDecrypt.Card.Options
import UtokenDecrypt.Card.PinSafety
import UtokenDecrypt.Card.Report
import UtokenDecrypt.Card.Rules
import UtokenDecrypt.Card.Slots
import UtokenDecrypt.Card.UnwrapBounds
import UtokenDecrypt.Ccid.Codec
import UtokenDecrypt.Ccid.Debug
import UtokenDecrypt.Ccid.Decides
import UtokenDecrypt.Ccid.Session
import UtokenDecrypt.Usb.Acceptance
import UtokenDecrypt.Usb.Bounds
import UtokenDecrypt.Usb.Filter
import UtokenDecrypt.Usb.Limits
import UtokenDecrypt.Usb.Progress
import UtokenDecrypt.Usb.RoundTrip
import UtokenDecrypt.Usb.Selection
import UtokenDecrypt.Usb.Sysfs
import UtokenDecrypt.Usb.Transparency
