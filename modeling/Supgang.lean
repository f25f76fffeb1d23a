import Supgang.Journal.Tampering
import Supgang.Threshold.GrantLife
import Supgang.Threshold.Agreement
import Supgang.Threshold.FileStore
import Supgang.State.Joining
import Supgang.State.Failures
import Supgang.State.Install
import Supgang.Authority.Agreement
import Supgang.Authority.Burned
import Supgang.Update.Reverts
import Supgang.Update.Status
import Supgang.Update.Trials
import Supgang.State.Documents
import Supgang.Service.Admission
import Supgang.Service.Candidates
