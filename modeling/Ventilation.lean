import Ventilation.Number.Shortest
import Ventilation.Json.Printer
import Ventilation.Main
import Ventilation.Logging.Directory
import Ventilation.Config.Folder
import Ventilation.Web.Peer
import Ventilation.Proofs.Arbitration.LockHistory
import Ventilation.Proofs.Arbitration.Interlocks
import Ventilation.Proofs.Bus.Sound
import Ventilation.Proofs.Bus.Traffic
import Ventilation.Proofs.Server.Exchange
import Ventilation.Proofs.Server.Ledger
import Ventilation.Proofs.Server.Standstill
import Ventilation.Proofs.Bus.Coming
import Ventilation.Proofs.Bus.Delivery
import Ventilation.Proofs.Server.Merge
import Ventilation.Proofs.Server.Crowding
import Ventilation.Proofs.Server.Currency
import Ventilation.Proofs.Server.Chamber
import Ventilation.Proofs.Controller.Dispatch
import Ventilation.Proofs.Controller.Steps
import Ventilation.Proofs.Controller.Station
import Ventilation.Proofs.Server.Works
import Ventilation.Proofs.Client.Rewording
import Ventilation.Proofs.Server.Desk
import Ventilation.Proofs.Arbitration.Refusals
import Ventilation.Proofs.Bus.Room
import Ventilation.Proofs.Bus.Roll
import Ventilation.Proofs.Server.Reception
import Ventilation.Proofs.Controller.Hearing
import Ventilation.Proofs.Server.Mailroom
import Ventilation.Proofs.Client.Wrapping
import Ventilation.Proofs.Client.Contents
import Ventilation.Proofs.Arbitration.Trust
import Ventilation.Proofs.Server.Posting
import Ventilation.Proofs.Feed.Absence
import Ventilation.Proofs.Server.Reading
import Ventilation.Proofs.Server.Horizon
import Ventilation.Proofs.Controller.Dump
import Ventilation.Proofs.Bus.Closing
import Ventilation.Proofs.Config.Layers
import Ventilation.Proofs.Client.Calls
import Ventilation.Proofs.Arbitration.Repetition
import Ventilation.Proofs.Controller.Echo
import Ventilation.Proofs.Client.Telling
import Ventilation.Proofs.Broker.Policy
import Ventilation.Proofs.Settings.Address
import Ventilation.Proofs.Settings.Checking
import Ventilation.Proofs.Config.File
import Ventilation.Proofs.Logging.Retention
import Ventilation.Proofs.Logging.Selection
