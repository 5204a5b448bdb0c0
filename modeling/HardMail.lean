import HardMail.Transaction.RoundTrip
import HardMail.Transaction.Bounds
import HardMail.Transaction.Verdict
import HardMail.Session.Frozen
import HardMail.Session.Paths
import HardMail.Session.Export
import HardMail.Session.Refusal
import HardMail.Device.Disclosure
import HardMail.Device.Counting
import HardMail.Device.Transparency
import HardMail.Host.Verification
import HardMail.Host.Script
import HardMail.Token.Database
import HardMail.Ui.Menu
