import Partimer.Lib.KeyTree
import Partimer.Lib.Code
import Partimer.Lib.Trace
import Partimer.Lib.Simulation
import Partimer.Lib.Schema
import Partimer.Lib.Queue
import Partimer.Lib.Form
import Partimer.Firebase
import Partimer.Jobs.CreateJob
import Partimer.Jobs.FormCheck
import Partimer.Jobs.MapLoops
import Partimer.Jobs.Agreement
import Partimer.Jobs.Pins
import Partimer.Jobs.Independence
import Partimer.Jobs.Repost
import Partimer.Jobs.Posted
import Partimer.Jobs.Interleaving
import Partimer.Jobs.Pictures
import Partimer.Accounts.Registration
import Partimer.Accounts.Profiles
import Partimer.Accounts.TypedProfiles
import Partimer.Accounts.LogIn
import Partimer.Accounts.SignUpCut
import Partimer.Screens.EmployeeMap
import Partimer.Screens.Welcome
import Partimer.Screens.ViewJobs
import Partimer.Screens.JobList
import Partimer.Screens.MapActivity
import Partimer.Screens.MapMarkers
import Partimer.Screens.BossMarkers
import Partimer.Screens.Navigation
import Partimer.Screens.Admission
import Partimer.Screens.UseMyLocation
import Partimer.Screens.OwnLocation
import Partimer.Screens.LocationUpdates
import Partimer.Screens.WelcomeCompany
import Partimer.Screens.OwnRecord
import Partimer.Deployment.Devices
import Partimer.Deployment.Accounts
import Partimer.Deployment.Answers
import Partimer.Deployment.Delivery
import Partimer.Deployment.DatabaseSchema
import Partimer.Deployment.Profiles
import Partimer.Deployment.LogIns
import Partimer.Deployment.SignUps
import Partimer.Deployment.Forms
import Partimer.Deployment.JobRows
import Partimer.Deployment.Markers
import Partimer.Deployment.Convergence
import Partimer.Deployment.Crashes
import Partimer.Deployment.Settled
