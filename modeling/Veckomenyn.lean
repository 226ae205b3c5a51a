import Veckomenyn.BothDates
import Veckomenyn.LockedPatch
import Veckomenyn.Frames
import Veckomenyn.LateWrite
import Veckomenyn.Race
import Veckomenyn.TwoWays
import Veckomenyn.AddOnce
import Veckomenyn.CartMirror
import Veckomenyn.Sessions
import Veckomenyn.LateAnswer
import Veckomenyn.MasterKey
import Veckomenyn.Echo
import Veckomenyn.Masking
import Veckomenyn.Misconfigured
import Veckomenyn.LostPatch
import Veckomenyn.Unrecorded
import Veckomenyn.Chunks
import Veckomenyn.Conversations
import Veckomenyn.OnePlan
import Veckomenyn.LostEdit
import Veckomenyn.Switched
import Veckomenyn.Duplicates
import Veckomenyn.Nightly
import Veckomenyn.Refusals
import Veckomenyn.FirstRun
import Veckomenyn.RatingMigration
import Veckomenyn.DateOrder
import Veckomenyn.Shift
import Veckomenyn.CloneRows
import Veckomenyn.Room
import Veckomenyn.Extension
import Veckomenyn.Faults
import Veckomenyn.Retries
import Veckomenyn.SetList
import Veckomenyn.Like
import Veckomenyn.Escaping
import Veckomenyn.Titles
import Veckomenyn.LastTime
import Veckomenyn.Conflict
import Veckomenyn.LastRating
import Veckomenyn.Flatten
import Veckomenyn.Breakpoints
import Veckomenyn.ProviderTest
import Veckomenyn.AuthText
import Veckomenyn.Kronor
import Veckomenyn.RunningTotal
import Veckomenyn.Credential
import Veckomenyn.Retention
import Veckomenyn.SameSecond
import Veckomenyn.BeforeMigration
import Veckomenyn.Updates
import Veckomenyn.Histories
import Veckomenyn.StoredSession
import Veckomenyn.RatingControl
import Veckomenyn.Warning
import Veckomenyn.Cards
import Veckomenyn.Slugs
import Veckomenyn.Grouping
import Veckomenyn.Usage
import Veckomenyn.Rollup
import Veckomenyn.Toasts
import Veckomenyn.AutoUpdate
import Veckomenyn.Transcript
import Veckomenyn.Reload
import Veckomenyn.Loader
import Veckomenyn.Atomic
import Veckomenyn.AllOrNothing
import Veckomenyn.Retrospectives
import Veckomenyn.Wire
import Veckomenyn.Backups
import Veckomenyn.SettingsModal
